import TreeExport.Literal
import TreeExport.Numeral

/-!
Reading numbers back. A number without its sign is spelled by a whole part, the digits of a fraction and an
exponent; the reader of literals and the reader of plain numbers take the same value from a spelling, so a
float that is read back from its plain text is read back from its literal.
-/

namespace TreeExport

namespace Json

/-- Whether a number can stand before a text without running on into it. -/
def Ends (text : List Char) : Prop :=
  ∀ c, text.head? = some c → isDigit c = false ∧ c ≠ '.' ∧ c ≠ 'e' ∧ c ≠ 'E'

theorem ends_nil : Ends [] := nofun

theorem ends_cons {c : Char} (text : List Char) (digit : isDigit c = false) (point : c ≠ '.')
    (small : c ≠ 'e') (big : c ≠ 'E') : Ends (c :: text) := by
  intro first same
  obtain rfl : c = first := Option.some.inj same
  exact ⟨digit, point, small, big⟩

def Stops (text : List Char) : Prop :=
  ∀ c, text.head? = some c → isDigit c = false

theorem Ends.stops {text : List Char} (ends : Ends text) : Stops text :=
  fun c first => (ends c first).1

theorem stops_cons {c : Char} (text : List Char) (digit : isDigit c = false) : Stops (c :: text) := by
  intro first same
  obtain rfl : c = first := Option.some.inj same
  exact digit

theorem takeWhile_isDigit {digits rest : List Char} (all : ∀ c ∈ digits, isDigit c)
    (stops : Stops rest) : (digits ++ rest).takeWhile isDigit = digits := by
  rw [List.takeWhile_append_of_pos all]
  cases rest with
  | nil => rw [List.takeWhile_nil, List.append_nil]
  | cons c rest =>
      have other : isDigit c = false := stops c rfl
      rw [List.takeWhile_cons, other]
      exact List.append_nil digits

theorem dropWhile_isDigit {digits rest : List Char} (all : ∀ c ∈ digits, isDigit c)
    (stops : Stops rest) : (digits ++ rest).dropWhile isDigit = rest := by
  rw [List.dropWhile_append_of_pos all]
  cases rest with
  | nil => rfl
  | cons c rest =>
      have other : isDigit c = false := stops c rfl
      rw [List.dropWhile_cons, other]
      rfl

theorem fractionDigits_of_ends {text : List Char} (ends : Ends text) : fractionDigits text = [] := by
  unfold fractionDigits
  split
  · exact absurd rfl (ends '.' rfl).2.1
  · rfl

theorem exponentPart_of_ends {text : List Char} (ends : Ends text) : exponentPart text = none := by
  cases text with
  | nil => rfl
  | cons c rest =>
      obtain ⟨_, _, small, big⟩ := ends c rfl
      simp [exponentPart, small, big]

structure Spelling where
  whole : List Char
  fraction : List Char
  exponent : Option (Bool × List Char)
  shortWhole : whole = ['0'] ∨ ∃ first others, whole = first :: others ∧ first ≠ '0'
  digitsWhole : ∀ c ∈ whole, isDigit c
  digitsFraction : ∀ c ∈ fraction, isDigit c
  digitsExponent : ∀ negative digits, exponent = some (negative, digits) →
    digits ≠ [] ∧ ∀ c ∈ digits, isDigit c

namespace Spelling

variable (spelling : Spelling) {rest : List Char}

def fractionText : List Char :=
  if spelling.fraction = [] then [] else '.' :: spelling.fraction

def exponentText : List Char :=
  match spelling.exponent with
  | none => []
  | some (negative, digits) => 'e' :: (if negative then '-' else '+') :: digits

def text : List Char :=
  spelling.whole ++ (spelling.fractionText ++ spelling.exponentText)

def power : Int :=
  match spelling.exponent with
  | none => 0
  | some (negative, digits) =>
    let magnitude : Int := Nat.ofDigitChars 10 digits 0
    if negative then -magnitude else magnitude

def value (negative : Bool) : Binary64 :=
  Binary64.ofDecimal negative (Nat.ofDigitChars 10 (spelling.whole ++ spelling.fraction) 0)
    (spelling.power - spelling.fraction.length)

theorem exists_whole_eq_cons : ∃ first others, spelling.whole = first :: others := by
  rcases spelling.shortWhole with zero | ⟨first, others, split, _⟩
  · exact ⟨'0', [], zero⟩
  · exact ⟨first, others, split⟩

theorem stops_exponent (stops : Stops rest) : Stops (spelling.exponentText ++ rest) := by
  unfold exponentText
  split
  · exact stops
  · exact stops_cons _ (by decide)

theorem stops_fraction (stops : Stops rest) :
    Stops (spelling.fractionText ++ (spelling.exponentText ++ rest)) := by
  unfold fractionText
  split
  · exact spelling.stops_exponent stops
  · exact stops_cons _ (by decide)

theorem wholeDigits_append (stops : Stops rest) : wholeDigits (spelling.whole ++ rest) = spelling.whole := by
  rcases spelling.shortWhole with zero | ⟨first, others, split, positive⟩
  · rw [zero]
    rfl
  · have all := spelling.digitsWhole
    rw [split] at all ⊢
    have run := takeWhile_isDigit (fun c member => all c (List.mem_cons_of_mem first member)) stops
    rw [List.cons_append, wholeDigits, if_neg positive, if_pos (all first List.mem_cons_self), run]

theorem fractionDigits_append (ends : Ends rest) :
    fractionDigits (spelling.fractionText ++ (spelling.exponentText ++ rest)) = spelling.fraction := by
  have stops := spelling.stops_exponent ends.stops
  unfold fractionText
  split
  · rename_i none
    rw [none, List.nil_append]
    unfold exponentText
    split
    · exact fractionDigits_of_ends ends
    · rfl
  · rw [List.cons_append, fractionDigits, takeWhile_isDigit spelling.digitsFraction stops]

theorem drop_fraction (after : List Char) :
    (if spelling.fraction.isEmpty then spelling.fractionText ++ after
      else (spelling.fractionText ++ after).drop (spelling.fraction.length + 1)) = after := by
  unfold fractionText
  cases spelling.fraction with
  | nil => rfl
  | cons c others => simp

theorem exponentPart_append (ends : Ends rest) :
    exponentPart (spelling.exponentText ++ rest) =
      spelling.exponent.map fun part => (part.1, part.2, spelling.exponentText.length) := by
  unfold exponentText
  cases exponent : spelling.exponent with
  | none => exact exponentPart_of_ends ends
  | some part =>
      obtain ⟨negative, digits⟩ := part
      obtain ⟨some_, all⟩ := spelling.digitsExponent negative digits exponent
      have run := takeWhile_isDigit all ends.stops
      have filled : digits.isEmpty = false := by simpa using some_
      cases negative with
      | false => simp [exponentPart, run, filled]; omega
      | true => simp [exponentPart, run, filled]; omega

theorem readMagnitude_text (negative : Bool) (ends : Ends rest)
    (float : spelling.fraction ≠ [] ∨ spelling.exponent ≠ none) :
    readMagnitude negative (spelling.text ++ rest) = .ok (.float (spelling.value negative), rest) := by
  have stops := spelling.stops_fraction ends.stops
  have whole := spelling.wholeDigits_append stops
  have text_eq : spelling.text ++ rest =
      spelling.whole ++ (spelling.fractionText ++ (spelling.exponentText ++ rest)) := by
    simp only [text, List.append_assoc]
  rw [readMagnitude, text_eq, whole, List.drop_left, spelling.fractionDigits_append ends]
  dsimp only
  rw [spelling.drop_fraction, spelling.exponentPart_append ends]
  unfold value power
  cases exponent : spelling.exponent with
  | none =>
      have given : spelling.fraction.isEmpty = false := by simpa [exponent] using float
      simp [given, exponentText, exponent]
  | some part => simp

theorem readMagnitude_whole (negative : Bool) (ends : Ends rest) :
    let magnitude : Int := Nat.ofDigitChars 10 spelling.whole 0
    readMagnitude negative (spelling.whole ++ rest) =
      if digitLimit < spelling.whole.length then .error (.longInteger spelling.whole.length)
      else .ok (.int (if negative then -magnitude else magnitude), rest) := by
  have whole := spelling.wholeDigits_append ends.stops
  rw [readMagnitude, whole, List.drop_left, fractionDigits_of_ends ends]
  dsimp only
  rw [List.isEmpty_nil, if_pos rfl, if_pos rfl, exponentPart_of_ends ends]

end Spelling

theorem exists_toDigits_eq_cons {n : Nat} (positive : n ≠ 0) :
    ∃ first others, Nat.toDigits 10 n = first :: others ∧ first ≠ '0' := by
  induction n using Nat.strongRecOn with
  | ind n ih =>
      by_cases small : n < 10
      · have nonzero : ∀ n < 10, n ≠ 0 → Nat.digitChar n ≠ '0' := by decide
        exact ⟨n.digitChar, [], Nat.toDigits_of_lt_base small, nonzero n small positive⟩
      · obtain ⟨first, others, split, nonzero⟩ := ih (n / 10) (by omega) (by omega)
        refine ⟨first, others ++ [(n % 10).digitChar], ?_, nonzero⟩
        rw [Nat.toDigits_of_base_le (by omega) (by omega), split, List.cons_append]

theorem isDigit_of_mem_toDigits {n : Nat} {c : Char} (member : c ∈ Nat.toDigits 10 n) :
    isDigit c = true :=
  Nat.isDigit_of_mem_toDigits (by omega) (by omega) member

def Spelling.ofNat (n : Nat) : Spelling where
  whole := Nat.toDigits 10 n
  fraction := []
  exponent := none
  shortWhole := by
    by_cases zero : n = 0
    · rw [zero]
      exact Or.inl (by decide)
    · exact Or.inr (exists_toDigits_eq_cons zero)
  digitsWhole := fun _ => isDigit_of_mem_toDigits
  digitsFraction := by simp
  digitsExponent := by simp

theorem find?_names_eq_none {c : Char} (digit : isDigit c) (negative : Bool) (more : List Char) :
    (names.find? fun entry => entry.1.isPrefixOf ((if negative then ['-'] else []) ++ c :: more)) =
      none := by
  have other : ∀ letter, isDigit letter = false → ¬letter = c := by
    rintro letter plain rfl
    simp [digit] at plain
  cases negative with
  | false =>
      simp [names, other 'n' (by decide), other 't' (by decide), other 'f' (by decide),
        other 'N' (by decide), other 'I' (by decide), other '-' (by decide)]
  | true => simp [names, other 'I' (by decide)]

theorem wholeDigits_isEmpty {c : Char} (digit : isDigit c) (rest : List Char) :
    (wholeDigits (c :: rest)).isEmpty = false := by
  rw [wholeDigits, if_pos digit]
  split
  · rfl
  · rfl

theorem readScalar_signed (spelling : Spelling) (negative : Bool) (after : List Char) :
    readScalar ((if negative then ['-'] else []) ++ (spelling.whole ++ after)) =
      readMagnitude negative (spelling.whole ++ after) := by
  obtain ⟨first, others, split⟩ := spelling.exists_whole_eq_cons
  have digit : isDigit first := spelling.digitsWhole first (by rw [split]; exact List.mem_cons_self)
  have unsigned : first ≠ '-' := by
    rintro rfl
    exact absurd digit (by decide)
  rw [split, List.cons_append, readScalar, find?_names_eq_none digit]
  cases negative with
  | false => simp [unsigned, wholeDigits_isEmpty digit]
  | true => simp [wholeDigits_isEmpty digit]

theorem readScalar_integerText_eq (n : Int) {rest : List Char} (ends : Ends rest) :
    readScalar (Value.integerText n ++ rest) =
      if digitLimit < (Nat.toDigits 10 n.natAbs).length then
        .error (.longInteger (Nat.toDigits 10 n.natAbs).length)
      else .ok (.int n, rest) := by
  have read := (Spelling.ofNat n.natAbs).readMagnitude_whole (decide (n < 0)) ends
  have signed := readScalar_signed (Spelling.ofNat n.natAbs) (decide (n < 0)) rest
  rw [read] at signed
  simp only [Spelling.ofNat, Nat.ofDigitChars_ten_toDigits, decide_eq_true_eq] at signed
  have magnitude : (if n < 0 then -(n.natAbs : Int) else (n.natAbs : Int)) = n := by
    split <;> omega
  rw [Value.integerText, List.append_assoc, signed, magnitude]

theorem readScalar_integerText {n : Int} {rest : List Char} (ends : Ends rest)
    (short : (Nat.toDigits 10 n.natAbs).length ≤ digitLimit) :
    readScalar (Value.integerText n ++ rest) = .ok (.int n, rest) := by
  rw [readScalar_integerText_eq n ends, if_neg (by omega)]

end Json

end TreeExport
