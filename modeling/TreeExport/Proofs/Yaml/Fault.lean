import TreeExport.Yaml.Scalar
import TreeExport.Proofs.Binary64.Nearest
import TreeExport.Proofs.Outcome
import TreeExport.Proofs.Text.Case

/-!
The faults of scalars, and how a text shows that it has them. A plain scalar without a written tag has the form
that its tag asks for, so that none of the faults that come from another form occurs; only a number to base sixty
can still have more places than a number has room for.
-/

namespace TreeExport

namespace Yaml

def placeLimit : Nat := 174

/-- What a text shows if it has a fault: a tag is written for a fault of a form, a number to base sixty has many
colons, and a code that is no character stands behind a backslash. -/
def Error.Within (source : List Char) : Error → Prop
  | .malformed => True
  | .calendar _ => True
  | .numeral _ => True
  | .unknownBoolean _ => '!' ∈ source
  | .emptyNumber => '!' ∈ source
  | .largeNumber => '!' ∈ source ∨ placeLimit ≤ source.count ':'
  | .noTimestamp => '!' ∈ source
  | .timestampOfCollection => '!' ∈ source
  | .codePoint => True
  | .hugeCodePoint => '\\' ∈ source

structure PlainWithin (source text : List Char) : Prop where
  ending : text.getLast? ≠ some '\n'
  colons : text.count ':' ≤ source.count ':'

def FitsIn (source : List Char) (tag : Tag) (text : String) : Prop :=
  ∀ result, tag.scalarValue? text = some result → Yields (Error.Within source) (fun _ => True) result

variable {source : List Char} {text : String} {tag : Tag}

/-! ### Numbers -/

theorem sixty_pow_lt_threshold : (60 : ℚ) ^ 173 < Binary64.threshold := by
  have whole : 60 ^ 173 < (2 ^ 53 - 1) * 2 ^ 971 := by decide +kernel
  have below : (60 : ℚ) ^ 173 < ((2 ^ 53 - 1 : Nat) : ℚ) * 2 ^ 971 := by exact_mod_cast whole
  refine below.trans_le ?_
  have unit : (2 : ℚ) ^ (971 : Int) = 2 ^ 971 := zpow_natCast 2 971
  rw [Binary64.threshold, unit]
  exact mul_le_mul_of_nonneg_right (by norm_num) (by positivity)

theorem exists_ofInt?_power {place : Nat} (near : place < placeLimit) :
    ∃ x, Binary64.ofInt? ((60 : Int) ^ place) = some x := by
  have small : ((60 ^ place : Nat) : ℚ) / (1 : Nat) < Binary64.threshold := by
    have le : (60 : ℚ) ^ place ≤ 60 ^ 173 :=
      pow_le_pow_right₀ (by norm_num) (Nat.le_of_lt_succ near)
    rw [Nat.cast_pow, Nat.cast_one, div_one, Nat.cast_ofNat]
    exact le.trans_lt sixty_pow_lt_threshold
  obtain ⟨x, finite⟩ := Binary64.exists_ofRatio_eq_finite (by decide) false small
  have power : (60 : Int) ^ place = (60 ^ place : Nat) := by
    rw [Nat.cast_pow, Nat.cast_ofNat]
  have whole : Binary64.ofInt ((60 : Int) ^ place) = .finite x := by
    rw [power, Binary64.ofInt, Int.natAbs_natCast, decide_eq_false (Int.not_lt.mpr (Int.natCast_nonneg _))]
    exact finite
  exact ⟨.finite x, by rw [Binary64.ofInt?, whole]⟩

theorem yields_sumPlaces {place : Nat} (sum : Binary64) (digits : List Binary64)
    (fits : placeLimit < place + digits.length → Error.largeNumber.Within source) :
    Yields (Error.Within source) (fun _ => True) (sumPlaces (60 ^ place) sum digits) := by
  induction digits generalizing place sum with
  | nil => exact trivial
  | cons digit rest ih =>
      rw [List.length_cons] at fits
      rw [sumPlaces]
      cases factor : Binary64.ofInt? (60 ^ place) with
      | none =>
          have far : placeLimit ≤ place := by
            by_contra near
            obtain ⟨x, isNumber⟩ := exists_ofInt?_power (Nat.lt_of_not_le near)
            rw [factor] at isNumber
            exact absurd isNumber nofun
          exact fits (by omega)
      | some weight =>
          have next := @ih (place + 1) (sum + digit * weight) (fun far => fits (by omega))
          rwa [Int.pow_succ] at next

theorem yields_floatMagnitude {magnitude : List Char}
    (fits : placeLimit ≤ magnitude.count ':' → Error.largeNumber.Within source) :
    Yields (Error.Within source) (fun _ => True) (floatMagnitude (String.ofList magnitude)) := by
  have numeral (text : String) : Yields (Error.Within source) (fun _ => True)
      ((Numeral.float text).mapError Error.numeral) := by
    cases Numeral.float text <;> exact trivial
  rw [floatMagnitude]
  split
  · exact trivial
  · split
    · exact trivial
    · split
      · apply (yields_mapM fun piece _ => numeral (String.ofList piece)).bind
        rintro digits ⟨length, _⟩
        rw [sixtieths, String.toList_ofList, Text.length_split] at length
        have one : (1 : Int) = 60 ^ 0 := rfl
        rw [one]
        apply yields_sumPlaces
        rw [List.length_reverse]
        exact fun far => fits (by omega)
      · exact numeral _

theorem yields_signedMagnitude (filled : text.toList.filter (· != '_') = [] → '!' ∈ source) :
    Yields (Error.Within source) (fun read => read.2.count ':' ≤ text.toList.count ':' ∧
      ∀ c ∈ text.toList, c ≠ '_' → c ≠ '-' → c ≠ '+' → c ∈ read.2) (signedMagnitude text) := by
  rw [signedMagnitude]
  split
  · rename_i empty
    exact filled empty
  · rename_i chars nonempty
    -- The underscores and one sign are dropped; every other character stays.
    have kept : ∀ c ∈ text.toList, c ≠ '_' → c ≠ '-' → c ≠ '+' →
        c ∈ (Numeral.splitSign (text.toList.filter (· != '_'))).2 := by
      intro c member joint minus plus
      have filtered : c ∈ text.toList.filter (· != '_') := List.mem_filter.mpr ⟨member, by simpa using joint⟩
      rw [Numeral.splitSign.eq_def]
      split
      · rename_i split
        rw [split] at filtered
        exact (List.mem_cons.mp filtered).resolve_left minus
      · rename_i split
        rw [split] at filtered
        exact (List.mem_cons.mp filtered).resolve_left plus
      · exact filtered
    have fewer : (Numeral.splitSign (text.toList.filter (· != '_'))).2.Sublist text.toList := by
      refine List.Sublist.trans ?_ (List.filter_sublist (p := (· != '_')))
      rw [Numeral.splitSign.eq_def]
      split
      · rename_i split
        rw [split]
        exact List.sublist_cons_self _ _
      · rename_i split
        rw [split]
        exact List.sublist_cons_self _ _
      · exact List.Sublist.refl _
    exact ⟨fewer.count_le ':', kept⟩

theorem yields_integerOf (base : Nat) (digits : List Char) :
    Yields (Error.Within source) (fun _ => True) (integerOf base digits) := by
  rw [integerOf]
  cases Numeral.integer base (String.ofList digits) <;> exact trivial

theorem yields_magnitudeOf {magnitude : List Char} (filled : magnitude = [] → '!' ∈ source) :
    Yields (Error.Within source) (fun _ => True) (magnitudeOf magnitude) := by
  rw [magnitudeOf.eq_def]
  split
  · exact filled rfl
  · exact trivial
  · exact yields_integerOf _ _
  · exact yields_integerOf _ _
  · exact yields_integerOf _ _
  · split
    · exact (yields_mapM fun piece _ => yields_integerOf 10 piece).bind fun _ _ => trivial
    · exact yields_integerOf _ _

theorem yields_integerValue
    (formed : '!' ∈ source ∨ ∃ c ∈ text.toList, c ≠ '_' ∧ c ≠ '-' ∧ c ≠ '+') :
    Yields (Error.Within source) (fun _ => True) (integerValue text) := by
  have filled (without : ∀ c ∈ text.toList, c ≠ '_' → c ≠ '-' → c = '+') : '!' ∈ source := by
    rcases formed with written | ⟨c, member, joint, minus, plus⟩
    · exact written
    · exact absurd (without c member joint minus) plus
  rw [integerValue]
  apply Yields.bind (yields_signedMagnitude fun empty => filled ?_)
  · rintro ⟨negative, magnitude⟩ ⟨_, kept⟩
    apply Yields.bind (yields_magnitudeOf fun empty => filled ?_)
    · exact fun _ _ => trivial
    · intro c member joint minus
      by_contra plus
      have inside := kept c member joint minus plus
      rw [empty] at inside
      exact absurd inside List.not_mem_nil
  · intro c member joint
    have gone := List.filter_eq_nil_iff.mp empty c member
    exact absurd (by simpa using joint) gone

theorem yields_floatValue (formed : '!' ∈ source ∨ '.' ∈ text.toList)
    (fits : placeLimit ≤ text.toList.count ':' → Error.largeNumber.Within source) :
    Yields (Error.Within source) (fun _ => True) (floatValue text) := by
  have filled (empty : (Text.lower text).toList.filter (· != '_') = []) : '!' ∈ source := by
    refine formed.resolve_right fun point => ?_
    have lowered : '.' ∈ (Text.lower text).toList := by
      rwa [← List.count_pos_iff, Text.count_lower (by decide) (by decide), List.count_pos_iff]
    exact absurd (by decide) (List.filter_eq_nil_iff.mp empty '.' lowered)
  rw [floatValue]
  apply Yields.bind (yields_signedMagnitude filled)
  rintro ⟨negative, magnitude⟩ ⟨fewer, _⟩
  rw [Text.count_lower (by decide) (by decide)] at fewer
  apply Yields.bind (yields_floatMagnitude fun many => fits (many.trans fewer))
  exact fun _ _ => trivial

theorem yields_timestampValue (formed : '!' ∈ source ∨ (Stamp.ofText? text.toList).isSome)
    (ending : '!' ∈ source ∨ text.toList.getLast? ≠ some '\n') :
    Yields (Error.Within source) (fun _ => True) (timestampValue text) := by
  rw [timestampValue]
  split
  · rename_i unformed
    show '!' ∈ source
    by_contra unwritten
    have single : (text.toList.getLast? == some '\n') = false :=
      beq_eq_false_iff_ne.mpr (ending.resolve_left unwritten)
    rw [single, if_neg (by decide)] at unformed
    have isStamp := formed.resolve_left unwritten
    rw [unformed] at isStamp
    exact absurd isStamp (by decide)
  · rename_i stamp _
    cases stamp.value <;> exact trivial

/-! ### Scalars -/

theorem isSome_lookup_booleans : ∀ word ∈ Tag.booleanWords, (booleans.lookup (Text.lower word)).isSome := by
  decide

theorem yields_booleanOf (known : '!' ∈ source ∨ Tag.booleanWords.contains text) :
    Yields (Error.Within source) (fun _ => True) (booleanOf text) := by
  rw [booleanOf]
  split
  · exact trivial
  · rename_i unknown
    refine known.resolve_right fun word => ?_
    have isBoolean := isSome_lookup_booleans text (List.contains_iff_mem.mp word)
    rw [unknown] at isBoolean
    exact absurd isBoolean (by decide)

theorem yields_binaryValue : Yields (Error.Within source) (fun _ => True) (binaryValue text) := by
  rw [binaryValue]
  split
  · split <;> trivial
  · trivial

def HasForm (tag : Tag) (text : String) : Prop :=
  match tag with
  | .bool => Tag.booleanWords.contains text
  | .int => Tag.isInteger text.toList
  | .float => Tag.isFloat text.toList
  | .timestamp => (Stamp.ofText? text.toList).isSome
  | _ => True

theorem isDigit_ne {c : Char} (digit : Json.isDigit c) : c ≠ '_' ∧ c ≠ '-' ∧ c ≠ '+' := by
  refine ⟨?_, ?_, ?_⟩ <;>
  · rintro rfl
    exact absurd digit (by decide)

theorem mem_of_mem_dropSign {chars : List Char} {c : Char} (member : c ∈ Tag.dropSign chars) : c ∈ chars := by
  rw [Tag.dropSign.eq_def] at member
  split at member
  · exact List.mem_cons_of_mem _ member
  · exact List.mem_cons_of_mem _ member
  · exact member

theorem exists_digit_of_isDigits {chars : List Char} (form : Tag.isDigits chars) :
    ∃ c rest, chars = c :: rest ∧ Json.isDigit c := by
  cases chars with
  | nil => exact absurd form (by decide)
  | cons c rest => exact ⟨c, rest, rfl, (Bool.and_eq_true_iff.mp form).1⟩

theorem exists_digit_of_isSexagesimal {chars : List Char} (form : Tag.isSexagesimal chars) :
    ∃ c rest, chars = c :: rest ∧ Json.isDigit c := by
  cases chars with
  | nil => exact absurd form (by decide)
  | cons c rest =>
      refine ⟨c, rest, rfl, ?_⟩
      rw [Tag.isSexagesimal] at form
      split at form
      · rename_i first second others pieces
        obtain ⟨digit, more, rfl, isDigit⟩ := exists_digit_of_isDigits (Bool.and_eq_true_iff.mp form).1
        have joined := Text.intercalate_split ':' (c :: rest)
        rw [pieces] at joined
        obtain ⟨rfl, _⟩ := List.cons.inj joined
        exact isDigit
      · exact absurd form (by decide)

theorem exists_digit_of_isInteger {chars : List Char} (form : Tag.isInteger chars) :
    ∃ c ∈ chars, c ≠ '_' ∧ c ≠ '-' ∧ c ≠ '+' := by
  suffices starts : ∃ c rest, Tag.dropSign chars = c :: rest ∧ Json.isDigit c by
    obtain ⟨c, rest, split, digit⟩ := starts
    exact ⟨c, mem_of_mem_dropSign (by rw [split]; exact List.mem_cons_self), isDigit_ne digit⟩
  rw [Tag.isInteger] at form
  split at form
  · exact ⟨_, _, ‹_›, by decide⟩
  · exact ⟨_, _, ‹_›, by decide⟩
  · exact ⟨_, _, ‹_›, by decide⟩
  · exact ⟨_, _, ‹_›, by decide⟩
  · rcases Bool.or_eq_true_iff.mp form with digits | places
    · exact exists_digit_of_isDigits digits
    · exact exists_digit_of_isSexagesimal places

theorem point_mem_of_isFloat {chars : List Char} (form : Tag.isFloat chars) : '.' ∈ chars := by
  apply mem_of_mem_dropSign
  by_contra absent
  have other : ∀ c ∈ Tag.dropSign chars, (c != '.') = true := by
    intro c member
    rw [bne_iff_ne]
    rintro rfl
    exact absent member
  have whole : (Tag.dropSign chars).takeWhile (· != '.') = Tag.dropSign chars := by
    have all := @List.takeWhile_append_of_pos Char (· != '.') (Tag.dropSign chars) [] other
    rwa [List.append_nil, List.takeWhile_nil, List.append_nil] at all
  rw [Tag.isFloat] at form
  simp only [whole, List.drop_length] at form
  exact absurd form (by decide)

theorem hasForm_ofPlain (ending : text.toList.getLast? ≠ some '\n') : HasForm (.ofPlain text) text := by
  have single : (text.toList.getLast? == some '\n') = false := beq_eq_false_iff_ne.mpr ending
  simp only [Tag.ofPlain, single, Bool.and_false, Bool.false_eq_true, if_false, String.ofList_toList]
  split
  · assumption
  · split
    · assumption
    · split
      · assumption
      · split
        · trivial
        · split
          · trivial
          · split
            · rename_i stamped
              exact Option.isSome_of_any stamped
            · split
              · trivial
              · split <;> trivial

theorem fitsIn_of_hasForm (formed : '!' ∈ source ∨ HasForm tag text)
    (plain : '!' ∈ source ∨ PlainWithin source text.toList) : FitsIn source tag text := by
  intro result value
  cases tag with
  | null => cases value; trivial
  | bool =>
      cases value
      exact (yields_booleanOf formed).map fun _ _ => trivial
  | int =>
      cases value
      exact (yields_integerValue (formed.imp_right exists_digit_of_isInteger)).map fun _ _ => trivial
  | float =>
      have fits (many : placeLimit ≤ text.toList.count ':') : Error.largeNumber.Within source :=
        plain.imp_right fun plain => many.trans plain.colons
      cases value
      exact (yields_floatValue (formed.imp_right point_mem_of_isFloat) fits).map fun _ _ => trivial
  | binary =>
      cases value
      exact yields_binaryValue.map fun _ _ => trivial
  | timestamp =>
      cases value
      exact yields_timestampValue formed (plain.imp_right PlainWithin.ending)
  | string => cases value; trivial
  | _ => cases value

end Yaml

end TreeExport
