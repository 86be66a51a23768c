import TreeExport.Proofs.Binary64.Shortest
import TreeExport.Proofs.Json.Number

/-!
Floats in literals. The text of a finite number is a spelling with a fraction or an exponent, so a literal
that holds it is read as that number whenever its plain text is.
-/

namespace TreeExport

namespace Binary64

open Json (Spelling isDigit)

variable {digits : List Char}

theorem Finite.eq_zero_of_mantissa (x : Finite) (none : x.mantissa = 0) : zero x.negative = .finite x := by
  obtain ⟨negative, mantissa, exponent, canonical⟩ := x
  dsimp only at none
  subst none
  have least : exponent = -1074 := canonical.2.2.2.resolve_right (by decide)
  subst least
  rfl

theorem isDigit_of_mem_zeros {n : Nat} {c : Char} (member : c ∈ List.replicate n '0') :
    isDigit c := by
  rw [List.eq_of_mem_replicate member]
  decide

theorem isDigit_of_mem_zero {c : Char} (member : c ∈ ['0']) : isDigit c := by
  rw [List.mem_singleton.mp member]
  decide

theorem ofDigitChars_zeros (n : Nat) (digits : List Char) :
    Nat.ofDigitChars 10 (List.replicate n '0' ++ digits) 0 = Nat.ofDigitChars 10 digits 0 := by
  rw [Nat.ofDigitChars_append, Nat.ofDigitChars_replicate_zero, Nat.mul_zero]

theorem ofDigitChars_append_zeros (digits : List Char) (n : Nat) :
    Nat.ofDigitChars 10 (digits ++ List.replicate n '0') 0 = Nat.ofDigitChars 10 digits 0 * 10 ^ n := by
  rw [Nat.ofDigitChars_append, Nat.ofDigitChars_replicate_zero, Nat.mul_comm]

section Spellings

variable (all : ∀ c ∈ digits, isDigit c) (start : ∃ first others, digits = first :: others ∧ first ≠ '0')
include all start

theorem exists_spelling_small {point : Int} (before : point ≤ 0) :
    ∃ spelling : Spelling, positional digits point = spelling.text ∧ spelling.fraction ≠ [] ∧
      ∀ negative, spelling.value negative =
        ofDecimal negative (Nat.ofDigitChars 10 digits 0) (point - digits.length) := by
  obtain ⟨first, others, split, _⟩ := start
  refine ⟨⟨['0'], List.replicate (-point).toNat '0' ++ digits, none, Or.inl rfl,
    fun _ => isDigit_of_mem_zero, ?_, nofun⟩, ?_, ?_, ?_⟩
  · intro c member
    rcases List.mem_append.mp member with padding | digit
    · exact isDigit_of_mem_zeros padding
    · exact all c digit
  · simp [positional, before, Spelling.text, Spelling.fractionText, Spelling.exponentText, split]
  · simp [split]
  · intro negative
    have zeros := ofDigitChars_zeros (1 + (-point).toNat) digits
    rw [List.replicate_add, List.append_assoc] at zeros
    rw [Spelling.value, Spelling.power, ← zeros]
    congr 1
    simp only [List.length_append, List.length_replicate]
    omega

theorem exists_spelling_large {point : Int} (behind : 0 < point) :
    ∃ spelling : Spelling, positional digits point = spelling.text ∧ spelling.fraction ≠ [] ∧
      ∀ negative, spelling.value negative =
        ofDecimal negative (Nat.ofDigitChars 10 digits 0) (point - digits.length) := by
  obtain ⟨first, others, split, nonzero⟩ := start
  obtain ⟨places, places_eq⟩ : ∃ places, point.toNat = places + 1 :=
    ⟨point.toNat - 1, by omega⟩
  have fraction : (if (digits.drop point.toNat).isEmpty then ['0']
      else digits.drop point.toNat) ≠ [] := by
    split
    · simp
    · rename_i filled
      simpa using filled
  have starts : digits.take point.toNat ++ List.replicate (point.toNat - digits.length) '0' =
      first :: (others.take places ++ List.replicate (point.toNat - digits.length) '0') := by
    rw [places_eq, split, List.take_succ_cons, List.cons_append]
  have wholeDigits : ∀ c ∈ digits.take point.toNat ++
      List.replicate (point.toNat - digits.length) '0', isDigit c := by
    intro c member
    rcases List.mem_append.mp member with digit | padding
    · exact all c (List.mem_of_mem_take digit)
    · exact isDigit_of_mem_zeros padding
  have fractionDigits : ∀ c ∈ if (digits.drop point.toNat).isEmpty then ['0']
      else digits.drop point.toNat, isDigit c := by
    intro c member
    split at member
    · exact isDigit_of_mem_zero member
    · exact all c (List.mem_of_mem_drop member)
  refine ⟨⟨_, _, none, Or.inr ⟨first, _, starts, nonzero⟩, wholeDigits, fractionDigits, by simp⟩, ?_,
    fraction, ?_⟩
  · simp only [positional, if_neg (not_le.mpr behind), Spelling.text, Spelling.fractionText,
      if_neg fraction, Spelling.exponentText, List.append_nil]
  · intro negative
    rw [Spelling.value, Spelling.power]
    dsimp only
    -- The point stands among the digits, or behind zeros that are put after them.
    by_cases inside : point.toNat < digits.length
    · have some : (digits.drop point.toNat).isEmpty = false := by
        rw [List.isEmpty_eq_false_iff, ← List.length_pos_iff, List.length_drop]
        omega
      have none : point.toNat - digits.length = 0 := by omega
      rw [some, none, List.replicate_zero, List.append_nil, if_neg Bool.false_ne_true, List.take_append_drop,
        List.length_drop]
      congr 1
      omega
    · have none : (digits.drop point.toNat).isEmpty = true := by
        rw [List.isEmpty_iff, List.drop_eq_nil_iff]
        omega
      have zeros := ofDigitChars_append_zeros digits (point.toNat - digits.length + 1)
      rw [List.replicate_add, ← List.append_assoc] at zeros
      rw [none, if_pos rfl, List.take_of_length_le (by omega)]
      refine (congrArg (ofDecimal negative · _) zeros).trans ?_
      rw [ofDecimal_mul_ten_pow]
      congr 1
      simp only [List.length_singleton]
      push_cast
      omega

theorem exists_spelling_scientific (layout : Layout) (exponent : Int) :
    ∃ spelling : Spelling, scientific layout digits exponent = spelling.text ∧ spelling.exponent ≠ none ∧
      ∀ negative, spelling.value negative =
        ofDecimal negative (Nat.ofDigitChars 10 digits 0) (exponent + 1 - digits.length) := by
  obtain ⟨first, others, split, nonzero⟩ := start
  rw [split] at all
  refine ⟨⟨[first], others, some (decide (exponent < 0),
      List.replicate (layout.exponentWidth - (Nat.toDigits 10 exponent.natAbs).length) '0' ++
        Nat.toDigits 10 exponent.natAbs), Or.inr ⟨first, [], rfl, nonzero⟩, ?_, ?_, ?_⟩, ?_, nofun, ?_⟩
  · intro c member
    rw [List.mem_singleton.mp member]
    exact all first List.mem_cons_self
  · intro c member
    exact all c (List.mem_cons_of_mem first member)
  · intro negative power same
    obtain ⟨rfl, rfl⟩ := Prod.mk.inj (Option.some.inj same)
    refine ⟨by simp [Nat.toDigits_ne_nil], ?_⟩
    intro c member
    rcases List.mem_append.mp member with padding | digit
    · exact isDigit_of_mem_zeros padding
    · exact Json.isDigit_of_mem_toDigits digit
  · rw [split]
    cases others with
    | nil => simp [scientific, Spelling.text, Spelling.fractionText, Spelling.exponentText]
    | cons second more =>
        simp [scientific, Spelling.text, Spelling.fractionText, Spelling.exponentText]
  · intro negative
    rw [Spelling.value, Spelling.power, split]
    dsimp only
    rw [ofDigitChars_zeros, Nat.ofDigitChars_ten_toDigits]
    congr 1
    simp only [decide_eq_true_eq, List.length_cons]
    split <;> omega

end Spellings

/-- A written magnitude is a spelling that no integer has, and its value is the number. -/
theorem exists_spelling_renderMagnitude (layout : Layout) (x : Finite) :
    ∃ spelling : Spelling, x.renderMagnitude layout = spelling.text ∧
      (spelling.fraction ≠ [] ∨ spelling.exponent ≠ none) ∧ spelling.value x.negative = .finite x := by
  unfold Finite.renderMagnitude
  by_cases zero : x.mantissa = 0
  · refine ⟨⟨['0'], ['0'], none, Or.inl rfl, fun _ => isDigit_of_mem_zero,
      fun _ => isDigit_of_mem_zero, nofun⟩, by rw [if_pos zero]; rfl, Or.inl (by simp), ?_⟩
    exact x.eq_zero_of_mantissa zero
  · have start := Json.exists_toDigits_eq_cons (Finite.shortest_ne_zero zero)
    have all : ∀ c ∈ Nat.toDigits 10 x.shortest.coefficient, isDigit c :=
      fun _ => Json.isDigit_of_mem_toDigits
    have back := x.ofDecimal_shortest zero
    rw [if_neg zero]
    dsimp only
    split
    · by_cases before : x.shortest.power + (Nat.toDigits 10 x.shortest.coefficient).length - 1 + 1 ≤ 0
      · obtain ⟨spelling, written, fraction, value⟩ := exists_spelling_small all start before
        refine ⟨spelling, written, Or.inl fraction, ?_⟩
        rw [value, Nat.ofDigitChars_ten_toDigits, ← back]
        congr 1
        omega
      · obtain ⟨spelling, written, fraction, value⟩ := exists_spelling_large all start (not_le.mp before)
        refine ⟨spelling, written, Or.inl fraction, ?_⟩
        rw [value, Nat.ofDigitChars_ten_toDigits, ← back]
        congr 1
        omega
    · obtain ⟨spelling, written, exponent, value⟩ := exists_spelling_scientific all start layout
        (x.shortest.power + (Nat.toDigits 10 x.shortest.coefficient).length - 1)
      refine ⟨spelling, written, Or.inr exponent, ?_⟩
      rw [value, Nat.ofDigitChars_ten_toDigits, ← back]
      congr 1
      omega

end Binary64

namespace Numeral

open Json (Spelling isDigit)

def IsPlain (c : Char) : Prop :=
  isDigit c ∨ c ∈ ['.', 'e', '+', '-']

instance (c : Char) : Decidable (IsPlain c) :=
  inferInstanceAs (Decidable (_ ∨ _))

theorem isPlain_of_mem_text {spelling : Spelling} {c : Char} (member : c ∈ spelling.text) :
    IsPlain c := by
  simp only [Spelling.text, List.mem_append] at member
  rcases member with whole | fraction | exponent
  · exact Or.inl (spelling.digitsWhole c whole)
  · unfold Spelling.fractionText at fraction
    split at fraction
    · simp at fraction
    · rcases List.mem_cons.mp fraction with rfl | digit
      · exact Or.inr (by decide)
      · exact Or.inl (spelling.digitsFraction c digit)
  · unfold Spelling.exponentText at exponent
    split at exponent
    · simp at exponent
    · rename_i negative digits given
      rcases List.mem_cons.mp exponent with rfl | behind
      · exact Or.inr (by decide)
      · rcases List.mem_cons.mp behind with rfl | digit
        · refine Or.inr ?_
          split <;> decide
        · exact Or.inl ((spelling.digitsExponent negative digits given).2 c digit)

theorem isPlain_of_mem_sign {negative : Prop} [Decidable negative] {c : Char}
    (member : c ∈ if negative then ['-'] else []) : IsPlain c := by
  split at member
  · rw [List.mem_singleton.mp member]
    exact Or.inr (by decide)
  · simp at member

theorem isPlain_of_mem_render {layout : Binary64.Layout} {x : Binary64.Finite} {c : Char}
    (member : c ∈ Binary64.render layout (.finite x)) : IsPlain c := by
  obtain ⟨spelling, written, _, _⟩ := Binary64.exists_spelling_renderMagnitude layout x
  rw [Binary64.render, written] at member
  rcases List.mem_append.mp member with sign | inside
  · exact isPlain_of_mem_sign sign
  · exact isPlain_of_mem_text inside

theorem isPlain_of_mem_integerText {n : Int} {c : Char} (member : c ∈ Value.integerText n) :
    IsPlain c := by
  rcases List.mem_append.mp member with sign | inside
  · exact isPlain_of_mem_sign sign
  · exact Or.inl (Json.isDigit_of_mem_toDigits inside)

theorem IsPlain.le_toNat {c : Char} (plain : IsPlain c) : 0x20 ≤ c.toNat := by
  rcases plain with digit | mark
  · simp only [isDigit, Bool.and_eq_true, decide_eq_true_eq] at digit
    have above : '0'.toNat ≤ c.toNat := digit.1
    exact Nat.le_trans (by decide) above
  · simp only [List.mem_cons, List.not_mem_nil, or_false] at mark
    rcases mark with rfl | rfl | rfl | rfl <;> decide

theorem IsPlain.toNat_lt {c : Char} (plain : IsPlain c) : c.toNat < 0x80 := by
  rcases plain with digit | mark
  · simp only [isDigit, Bool.and_eq_true, decide_eq_true_eq] at digit
    have below : c.toNat ≤ '9'.toNat := digit.2
    exact Nat.lt_of_le_of_lt below (by decide)
  · simp only [List.mem_cons, List.not_mem_nil, or_false] at mark
    rcases mark with rfl | rfl | rfl | rfl <;> decide

theorem IsPlain.unchanged {c : Char} (plain : IsPlain c) :
    Text.isWhiteSpace c = false ∧ c ≠ '_' ∧
      (match Text.digitValue? c with
        | some value => Nat.digitChar value
        | none => c) = c := by
  have table : ∀ code < 0x80, IsPlain (Char.ofNat code) →
      Text.isWhiteSpace (Char.ofNat code) = false ∧ Char.ofNat code ≠ '_' ∧
        (match Text.digitValue? (Char.ofNat code) with
          | some value => Nat.digitChar value
          | none => Char.ofNat code) = Char.ofNat code := by
    decide +kernel
  have entry := table c.toNat plain.toNat_lt
  rw [Char.ofNat_toNat] at entry
  exact entry plain

theorem dropWhile_of_false {skip : Char → Bool} {text : List Char}
    (none : ∀ c ∈ text, skip c = false) : text.dropWhile skip = text := by
  cases text with
  | nil => rfl
  | cons c rest => rw [List.dropWhile_cons, none c List.mem_cons_self]; rfl

theorem normalize_of_plain {text : List Char} (plain : ∀ c ∈ text, IsPlain c) :
    normalize text = text := by
  have noBlank : ∀ c ∈ text, Text.isWhiteSpace c = false := fun c member => (plain c member).unchanged.1
  have trimmed : Text.trimEnds Text.isWhiteSpace text = text := by
    rw [Text.trimEnds, dropWhile_of_false noBlank,
      dropWhile_of_false (fun c member => noBlank c (List.mem_reverse.mp member)), List.reverse_reverse]
  rw [normalize, trimmed]
  calc text.map _ = text.map id := List.map_congr_left fun c member => (plain c member).unchanged.2.2
    _ = text := List.map_id text

theorem dropJoints?_of_plain {text : List Char} (plain : ∀ c ∈ text, IsPlain c) (joint : Bool) :
    dropJoints? joint text = some text := by
  induction text generalizing joint with
  | nil => rfl
  | cons c rest ih =>
      have single := (plain c List.mem_cons_self).unchanged.2.1
      have others := ih fun other member => plain other (List.mem_cons_of_mem c member)
      rw [dropJoints?, others]
      · rfl
      · rintro rfl
        exact single rfl

def splitFraction : List Char → List Char × List Char
  | '.' :: rest => (rest.takeWhile isDigit, rest.dropWhile isDigit)
  | rest => ([], rest)

theorem splitFraction_text (spelling : Spelling) :
    splitFraction (spelling.fractionText ++ spelling.exponentText) =
      (spelling.fraction, spelling.exponentText) := by
  have stops := spelling.stops_exponent Json.ends_nil.stops
  rw [List.append_nil] at stops
  by_cases none : spelling.fraction = []
  · rw [Spelling.fractionText, if_pos none, List.nil_append, none]
    unfold Spelling.exponentText
    cases spelling.exponent with
    | none => rfl
    | some part => rfl
  · rw [Spelling.fractionText, if_neg none, List.cons_append, splitFraction,
      Json.takeWhile_isDigit spelling.digitsFraction stops,
      Json.dropWhile_isDigit spelling.digitsFraction stops]

theorem plainFloat?_eq {text whole fraction rest : List Char} (negative : Bool)
    (before : text.takeWhile isDigit = whole)
    (behind : splitFraction (text.drop whole.length) = (fraction, rest)) :
    plainFloat? negative text =
      if whole.isEmpty && fraction.isEmpty then none
      else
        let coefficient := Nat.ofDigitChars 10 (whole ++ fraction) 0
        match rest with
        | [] => some (Binary64.ofDecimal negative coefficient (-fraction.length))
        | rest =>
          match Json.exponentPart rest with
          | none => none
          | some (exponentNegative, digits, count) =>
            if count = rest.length then
              let exponent : Int := Nat.ofDigitChars 10 digits 0
              let exponent := if exponentNegative then -exponent else exponent
              some (Binary64.ofDecimal negative coefficient (exponent - fraction.length))
            else none := by
  subst before
  obtain ⟨rfl, rfl⟩ := Prod.mk.inj behind
  rfl

theorem plainFloat?_text (spelling : Spelling) (negative : Bool) :
    plainFloat? negative spelling.text = some (spelling.value negative) := by
  have stops := spelling.stops_fraction Json.ends_nil.stops
  have exponentPart := spelling.exponentPart_append Json.ends_nil
  simp only [List.append_nil] at stops exponentPart
  have whole : spelling.text.takeWhile isDigit = spelling.whole :=
    Json.takeWhile_isDigit spelling.digitsWhole stops
  have parts : splitFraction (spelling.text.drop spelling.whole.length) =
      (spelling.fraction, spelling.exponentText) := by
    rw [Spelling.text, List.drop_left, splitFraction_text]
  obtain ⟨first, others, start⟩ := spelling.exists_whole_eq_cons
  have filled : spelling.whole.isEmpty = false := by rw [start]; rfl
  rw [plainFloat?_eq negative whole parts, filled, Spelling.value, Spelling.power]
  cases exponent : spelling.exponent with
  | none => simp [Spelling.exponentText, exponent]
  | some part =>
      have written : spelling.exponentText = 'e' :: (if part.1 then '-' else '+') :: part.2 := by
        rw [Spelling.exponentText, exponent]
      rw [exponent] at exponentPart
      simp [written] at exponentPart ⊢
      simp [exponentPart]

theorem float?_signed {first : Char} (digit : isDigit first) (negative : Bool) (others : List Char) :
    float? ((if negative then ['-'] else []) ++ first :: others) =
      plainFloat? negative (first :: others) := by
  have lower : ∀ code < 0x80, isDigit (Char.ofNat code) → (Char.ofNat code).toLower ≠ 'i' ∧
      (Char.ofNat code).toLower ≠ 'n' ∧ Char.ofNat code ≠ '-' ∧ Char.ofNat code ≠ '+' := by
    decide +kernel
  have facts := lower first.toNat (IsPlain.toNat_lt (Or.inl digit))
  rw [Char.ofNat_toNat] at facts
  obtain ⟨notInfinity, notNan, notMinus, notPlus⟩ := facts digit
  have sign : splitSign ((if negative then ['-'] else []) ++ first :: others) =
      (negative, first :: others) := by
    cases negative with
    | false => simp [splitSign, notMinus, notPlus]
    | true => rfl
  have unnamed : isWord "inf" (first :: others) = false ∧ isWord "infinity" (first :: others) = false ∧
      isWord "nan" (first :: others) = false := by
    simp [isWord, notInfinity, notNan]
  unfold float?
  rw [sign]
  simp [unnamed]

theorem float_text (spelling : Spelling) (negative : Bool) :
    float (String.ofList ((if negative then ['-'] else []) ++ spelling.text)) =
      .ok (spelling.value negative) := by
  have plain : ∀ c ∈ (if negative then ['-'] else []) ++ spelling.text, IsPlain c := by
    intro c member
    rcases List.mem_append.mp member with sign | inside
    · exact isPlain_of_mem_sign sign
    · exact isPlain_of_mem_text inside
  obtain ⟨first, others, start⟩ := spelling.exists_whole_eq_cons
  have digit : isDigit first := spelling.digitsWhole first (by rw [start]; exact List.mem_cons_self)
  have read : float? ((if negative then ['-'] else []) ++ spelling.text) =
      some (spelling.value negative) := by
    rw [← plainFloat?_text, Spelling.text, start, List.cons_append, float?_signed digit]
  rw [float, String.toList_ofList, normalize_of_plain plain, dropJoints?_of_plain plain,
    Option.bind_some, read]

end Numeral

namespace Json

/-- Whether a number is equal to what its text is read as; `readsBack` says that it always is. -/
def ReadsBack (x : Binary64.Finite) : Prop :=
  ∃ y, Numeral.float (String.ofList (Binary64.render .display (.finite x))) = .ok y ∧
    y.eqv (.finite x)

theorem readsBack (x : Binary64.Finite) : ReadsBack x := by
  obtain ⟨spelling, written, _, value⟩ := Binary64.exists_spelling_renderMagnitude .display x
  refine ⟨.finite x, ?_, ?_⟩
  · rw [Binary64.render, written, Numeral.float_text, value]
  · exact beq_self_eq_true (x.inUnits (min x.exponent x.exponent))

theorem readScalar_render (layout : Binary64.Layout) (x : Binary64.Finite) {rest : List Char}
    (ends : Ends rest) :
    readScalar (Binary64.render layout (.finite x) ++ rest) = .ok (.float (.finite x), rest) := by
  obtain ⟨spelling, written, isFloat, value⟩ := Binary64.exists_spelling_renderMagnitude layout x
  rw [Binary64.render, written, Spelling.text, List.append_assoc, List.append_assoc,
    readScalar_signed, ← List.append_assoc, ← Spelling.text,
    spelling.readMagnitude_text x.negative ends isFloat, value]

end Json

end TreeExport
