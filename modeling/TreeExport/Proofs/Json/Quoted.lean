import TreeExport.Json
import TreeExport.Literal

/-!
Reading a text between double quotes undoes the escapes it was written with. The written text holds no
control character, so no line ends in it, and its closing quote is the first quote that no backslash
announces, so whatever follows it is left as it is.
-/

namespace TreeExport

namespace Json

open Literal (escapeChar quote)

theorem fourHex?_append {digits : List Char} (four : digits.length = 4) (rest : List Char) :
    fourHex? (digits ++ rest) = fourHex? digits := by
  match digits, four with
  | [a, b, c, d], _ => rfl

theorem hexPadded_control {code : Nat} (control : code < 0x20) :
    (Text.hexPadded 4 code).length = 4 ∧ (∀ c ∈ Text.hexPadded 4 code, 0x20 ≤ c.toNat) ∧
      fourHex? (Text.hexPadded 4 code) = some code := by
  have table : ∀ code < 0x20, (Text.hexPadded 4 code).length = 4 ∧
      (Text.hexPadded 4 code).all (fun c => 0x20 ≤ c.toNat) = true ∧
      fourHex? (Text.hexPadded 4 code) = some code := by
    decide +kernel
  obtain ⟨four, visible, value⟩ := table code control
  refine ⟨four, ?_, value⟩
  intro c inside
  exact of_decide_eq_true (List.all_eq_true.mp visible c inside)

theorem isSome_hexValue?_of_mem_hexPadded {code : Nat} (control : code < 0x20) {c : Char}
    (member : c ∈ Text.hexPadded 4 code) : (hexValue? c).isSome := by
  have table : ∀ code < 0x20, (Text.hexPadded 4 code).all (fun c => (hexValue? c).isSome) = true := by
    decide +kernel
  exact List.all_eq_true.mp (table code control) c member

theorem readCode_hexPadded {code : Nat} (control : code < 0x20) {rest : List Char}
    (closed : rest ≠ []) : readCode (Text.hexPadded 4 code ++ rest) = .ok (Char.ofNat code, 4) := by
  obtain ⟨four, _, value⟩ := hexPadded_control control
  have long : ¬(Text.hexPadded 4 code ++ rest).length < 5 := by
    have := List.length_pos_iff.mpr closed
    rw [List.length_append, four]
    omega
  have high : ¬0xD800 ≤ code := by omega
  simp only [readCode, if_neg long, fourHex?_append four, value, charOfUnit, high, false_and, if_false]

theorem escapeChar_cases (c : Char) :
    (∃ letter, escapeChar c = ['\\', letter] ∧ letter ≠ 'u' ∧ escapedChar? letter = some c) ∨
    (escapeChar c = '\\' :: 'u' :: Text.hexPadded 4 c.toNat ∧ c.toNat < 0x20) ∨
    (escapeChar c = [c] ∧ c ≠ '"' ∧ c ≠ '\\' ∧ ¬c.toNat < 0x20) := by
  by_cases short : c ∈ ['"', '\\', '\n', '\r', '\t', '\x08', '\x0c']
  · simp only [List.mem_cons, List.not_mem_nil, or_false] at short
    rcases short with rfl | rfl | rfl | rfl | rfl | rfl | rfl <;>
      exact Or.inl ⟨_, rfl, by decide, rfl⟩
  · simp only [List.mem_cons, List.not_mem_nil, or_false, not_or] at short
    obtain ⟨quote, backslash, lineFeed, carriage, tab, backspace, formFeed⟩ := short
    have written : escapeChar c =
        if c.toNat < 0x20 then '\\' :: 'u' :: Text.hexPadded 4 c.toNat else [c] := by
      simp only [escapeChar, quote, backslash, lineFeed, carriage, tab, backspace, formFeed, if_false]
    rw [written]
    by_cases control : c.toNat < 0x20
    · exact Or.inr (Or.inl ⟨if_pos control, control⟩)
    · exact Or.inr (Or.inr ⟨if_neg control, quote, backslash, control⟩)

theorem le_toNat_of_escapedChar? {letter c : Char} (named : escapedChar? letter = some c) :
    0x20 ≤ letter.toNat := by
  unfold escapedChar? at named
  split at named
  · rename_i mark
    rcases mark with rfl | rfl | rfl <;> decide
  · by_cases short : letter ∈ ['b', 'f', 'n', 'r', 't']
    · simp only [List.mem_cons, List.not_mem_nil, or_false] at short
      rcases short with rfl | rfl | rfl | rfl | rfl <;> decide
    · simp only [List.mem_cons, List.not_mem_nil, or_false, not_or] at short
      simp [short] at named

theorem le_toNat_of_mem_quote {text : List Char} {c : Char} (member : c ∈ quote text) :
    0x20 ≤ c.toNat := by
  simp only [quote, List.cons_append, List.mem_cons, List.mem_append, List.not_mem_nil, or_false,
    List.mem_flatMap] at member
  rcases member with rfl | ⟨given, _, inside⟩ | rfl
  · decide
  · rcases escapeChar_cases given with ⟨letter, written, _, named⟩ | ⟨written, control⟩ |
      ⟨written, _, _, printed⟩
    · rw [written, List.mem_cons, List.mem_singleton] at inside
      rcases inside with rfl | rfl
      · decide
      · exact le_toNat_of_escapedChar? named
    · rw [written, List.mem_cons, List.mem_cons] at inside
      rcases inside with rfl | rfl | digit
      · decide
      · decide
      · exact (hexPadded_control control).2.1 c digit
    · rw [written, List.mem_singleton] at inside
      rw [inside]
      omega
  · decide

theorem lineFeed_not_mem_quote (text : List Char) : '\n' ∉ quote text :=
  fun inside => absurd (le_toNat_of_mem_quote inside) (by decide)

theorem readQuoted_escapeChar (opening : Nat) (c : Char) {rest : List Char} (closed : rest ≠ [])
    (reversed : List Char) :
    readQuoted opening (escapeChar c ++ rest) reversed = readQuoted opening rest (c :: reversed) := by
  rcases escapeChar_cases c with ⟨letter, written, plain, named⟩ | ⟨written, control⟩ |
    ⟨written, quote, backslash, printed⟩
  · have escaped : readEscape opening (letter :: rest) = .ok (c, 1) := by
      rw [readEscape, named]
      simpa using plain
    rw [written, List.cons_append, List.singleton_append, readQuoted, escaped]
    rfl
  · have escaped : readEscape opening ('u' :: (Text.hexPadded 4 c.toNat ++ rest)) = .ok (c, 5) := by
      rw [readEscape, readCode_hexPadded control closed, Char.ofNat_toNat]
      rfl
    have behind : ('u' :: (Text.hexPadded 4 c.toNat ++ rest)).drop 5 = rest := by
      rw [List.drop_succ_cons, List.drop_left' (hexPadded_control control).1]
    rw [written, List.cons_append, List.cons_append, readQuoted, escaped]
    simp only [behind, if_true, Char.reduceEq, if_false]
  · have above : ¬c.toNat ≤ 0x1F := by omega
    rw [written, List.singleton_append, readQuoted, if_neg quote, if_neg backslash, if_neg above]

theorem readQuoted_quote (opening : Nat) (text rest reversed : List Char) :
    readQuoted opening (text.flatMap escapeChar ++ '"' :: rest) reversed =
      .ok (reversed.reverse ++ text, rest) := by
  induction text generalizing reversed with
  | nil =>
      rw [List.flatMap_nil, List.nil_append, readQuoted, if_pos rfl, List.append_nil]
  | cons c text ih =>
      rw [List.flatMap_cons, List.append_assoc, readQuoted_escapeChar opening c (by simp), ih,
        List.reverse_cons, List.append_assoc, List.singleton_append]

end Json

end TreeExport
