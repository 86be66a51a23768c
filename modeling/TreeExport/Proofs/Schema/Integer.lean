import TreeExport.Proofs.Json.Readable
import TreeExport.Schema.Scalar

/-!
How long integers are that are read from values. A text is too long before its integer is, and the integer of a
number fits a word, so only an integer itself can have too many digits.
-/

namespace TreeExport

namespace Schema

open Value (HasFewDigits IsShort hasFewDigits_of_lt)

variable {text : List Char} {n : Int} {value : Value}

/-! ### Texts -/

theorem length_splitSign_le (text : List Char) : (Numeral.splitSign text).2.length ≤ text.length := by
  unfold Numeral.splitSign
  split <;> simp

theorem hasFewDigits_of_plainInteger? (read : plainInteger? text = some n)
    (short : text.length ≤ integerTextLimit) : HasFewDigits n := by
  unfold plainInteger? at read
  dsimp only at read
  split at read
  · exact absurd read nofun
  · rename_i filled
    rw [Bool.or_eq_true, not_or, Bool.not_eq_true', Bool.not_eq_false] at filled
    obtain rfl := Option.some.inj read
    have fits : (Numeral.splitSign text).2.length ≤ Json.digitLimit :=
      Nat.le_trans (length_splitSign_le text) short
    exact Json.hasFewDigits_of_digits (List.all_eq_true.mp filled.2) fits _

theorem length_dropLeadingZeros_le {last : Char} {stripped : List Char}
    (read : dropLeadingZeros last text = some stripped) : stripped.length ≤ text.length + 1 := by
  induction text generalizing last with
  | nil =>
      obtain rfl := Option.some.inj read
      simp
  | cons c rest ih =>
      rw [dropLeadingZeros] at read
      split at read
      · exact Nat.le_succ_of_le (ih read)
      split at read
      · split at read
        · exact absurd read nofun
        · exact Nat.le_succ_of_le (ih read)
      split at read
      · obtain rfl := Option.some.inj read
        simp
      split at read
      · obtain rfl := Option.some.inj read
        simp
      · exact absurd read nofun

theorem length_dropZeroFraction_le (text : List Char) : (dropZeroFraction text).length ≤ text.length := by
  rw [dropZeroFraction]
  split
  · exact (List.takeWhile_sublist _).length_le
  · exact Nat.le_refl _

theorem flatten_split (separator : Char) (text : List Char) :
    (Text.split separator text).flatten = text.filter (· != separator) := by
  induction text with
  | nil => rfl
  | cons c rest ih =>
      rw [Text.split, List.filter_cons, ← ih]
      by_cases same : c = separator
      · simp [same]
      · cases pieces : Text.split separator rest with
        | nil => exact absurd pieces (Text.split_ne_nil separator rest)
        | cons piece more => simp [same]

theorem length_dropUnderscores_le (text : List Char) : (dropUnderscores text).length ≤ text.length := by
  rw [dropUnderscores]
  split
  · exact Nat.le_refl _
  · rw [flatten_split]
    exact List.length_filter_le _ _

theorem length_cleaned_le {stripped clean : List Char}
    (cleaned : some (dropUnderscores (dropZeroFraction stripped)) = some clean) :
    clean.length ≤ stripped.length := by
  obtain rfl := Option.some.inj cleaned
  exact Nat.le_trans (length_dropUnderscores_le _) (length_dropZeroFraction_le stripped)

theorem length_cleanInteger?_le {clean : List Char} (read : cleanInteger? text = some clean) :
    clean.length ≤ text.length := by
  simp only [cleanInteger?, Option.bind_eq_bind] at read
  split at read
  · cases read
  all_goals
    rw [Option.bind_some] at read
    split at read
    · cases read
    · obtain ⟨stripped, started, cleaned⟩ := Option.bind_eq_some_iff.mp read
      have fewer := length_cleaned_le cleaned
      have fewerStripped := length_dropLeadingZeros_le started
      simp only [List.length_cons]
      omega
    · split at read
      · rw [Option.bind_some] at read
        have fewer := length_cleaned_le read
        simp only [List.length_cons] at fewer ⊢
        omega
      · cases read

theorem hasFewDigits_of_integerOfText {given : String} (read : integerOfText given = .valid n) :
    HasFewDigits n := by
  rw [integerOfText] at read
  split at read
  · exact absurd read nofun
  · rename_i short
    have short := Nat.le_of_not_lt short
    split at read
    · rename_i plain
      obtain rfl : _ = n := by injection read
      exact hasFewDigits_of_plainInteger? plain short
    · split at read
      · rename_i cleaned
        obtain rfl : _ = n := by injection read
        obtain ⟨clean, stripped, plain⟩ := Option.bind_eq_some_iff.mp cleaned
        exact hasFewDigits_of_plainInteger? plain (Nat.le_trans (length_cleanInteger?_le stripped) short)
      · exact absurd read nofun

/-! ### Values -/

theorem hasFewDigits_of_integerOfFloat {number : Binary64} (read : integerOfFloat number = .valid n) :
    HasFewDigits n := by
  unfold integerOfFloat at read
  split at read
  · rename_i x
    split at read
    · exact absurd read nofun
    split at read
    · exact absurd read nofun
    · rename_i small
      obtain rfl : _ = n := by injection read
      rw [not_or, wordLimit] at small
      have below : x.truncate.natAbs < 10 ^ 19 := by omega
      exact hasFewDigits_of_lt below (by decide)
  · exact absurd read nofun

theorem hasFewDigits_of_integer (read : integer value = .valid n) (short : value.IsShort) : HasFewDigits n := by
  unfold integer at read
  split at read
  · obtain rfl : _ = n := by injection read
    split <;> decide
  · obtain rfl : _ = n := by injection read
    exact short
  · exact hasFewDigits_of_integerOfFloat read
  · split at read
    · exact hasFewDigits_of_integerOfText read
    · exact absurd read nofun
    · exact absurd read nofun

end Schema

end TreeExport
