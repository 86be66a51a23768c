import TreeExport.Proofs.Literal.Compact
import TreeExport.Proofs.Markup.Tag

/-!
The names of the attributes in an opening tag. They are read without reading the values: a quoted value ends at
the next quote, a braced one at the brace that closes it, and no literal, of whatever value, ends it early. So
every tag has the names of its props behind that of the injected attribute, and one name stands twice exactly
if the data is injected beside a prop with its name.
-/

namespace TreeExport

namespace Markup

open Literal (quote escapeChar)

/-- What is behind the brace that closes some braces. Braces between quotes do not count, and a backslash there
takes the next character with it; literals have no other texts or comments. -/
def skipBraced : (depth : Nat) → (quoted : Bool) → List Char → Option (List Char)
  | _, _, [] => none
  | depth, true, '\\' :: _ :: rest => skipBraced depth true rest
  | depth, true, c :: rest => skipBraced depth (c != '"') rest
  | depth, false, '"' :: rest => skipBraced depth true rest
  | depth, false, '\x7b' :: rest => skipBraced (depth + 1) false rest
  | 0, false, '\x7d' :: rest => some rest
  | depth + 1, false, '\x7d' :: rest => skipBraced depth false rest
  | depth, false, _ :: rest => skipBraced depth false rest

def nameOfAttribute (text : List Char) : Option (String × List Char) :=
  let name := String.ofList (text.takeWhile (· != '='))
  match text.dropWhile (· != '=') with
  | '=' :: '"' :: rest =>
    match rest.dropWhile (· != '"') with
    | '"' :: behind => some (name, behind)
    | _ => none
  | '=' :: '\x7b' :: rest => (skipBraced 0 false rest).map (name, ·)
  | _ => none

def attributeNames : (fuel : Nat) → List Char → Option (List String)
  | _, [] => some []
  | fuel + 1, ' ' :: text => do
    let (name, rest) ← nameOfAttribute text
    let names ← attributeNames fuel rest
    return name :: names
  | _, _ => none

def Balanced (text : List Char) : Prop :=
  ∀ depth rest, skipBraced depth false (text ++ rest) = skipBraced depth false rest

section Balancing

variable {text : List Char}

theorem balanced_append {more : List Char} (first : Balanced text) (second : Balanced more) :
    Balanced (text ++ more) := by
  intro depth rest
  rw [List.append_assoc, first, second]

theorem balanced_solid (solid : ∀ c ∈ text, c ≠ '"' ∧ c ≠ '\x7b' ∧ c ≠ '\x7d') : Balanced text := by
  intro depth rest
  induction text with
  | nil => rfl
  | cons c text ih =>
      obtain ⟨quote, opening, closing⟩ := solid c List.mem_cons_self
      have later := ih fun other member => solid other (List.mem_cons_of_mem c member)
      rw [List.cons_append, ← later, skipBraced]
      · exact quote
      · exact opening
      · exact fun _ => closing
      · exact fun _ _ => closing

theorem balanced_of_all (solid : text.all (fun c => c != '"' && c != '\x7b' && c != '\x7d') = true) :
    Balanced text := by
  apply balanced_solid
  intro c member
  simpa [and_assoc] using List.all_eq_true.mp solid c member

theorem skipBraced_plain (plain : ∀ c ∈ text, c ≠ '"' ∧ c ≠ '\\') (depth : Nat) (rest : List Char) :
    skipBraced depth true (text ++ rest) = skipBraced depth true rest := by
  induction text with
  | nil => rfl
  | cons c text ih =>
      obtain ⟨quote, backslash⟩ := plain c List.mem_cons_self
      have later := ih fun other member => plain other (List.mem_cons_of_mem c member)
      rw [List.cons_append, skipBraced, bne_iff_ne.mpr quote, later]
      rintro next others rfl
      exact absurd rfl backslash

theorem skipBraced_escapeChar (c : Char) (depth : Nat) (rest : List Char) :
    skipBraced depth true (escapeChar c ++ rest) = skipBraced depth true rest := by
  rcases Json.escapeChar_cases c with ⟨letter, written, _⟩ | ⟨written, control⟩ | ⟨written, quote, backslash, _⟩
  · rw [written]
    rfl
  · have plain : ∀ digit ∈ Text.hexPadded 4 c.toNat, digit ≠ '"' ∧ digit ≠ '\\' := by
      intro digit member
      have hexadecimal := Json.isSome_hexValue?_of_mem_hexPadded control member
      constructor
      · rintro rfl
        exact absurd hexadecimal (by decide)
      · rintro rfl
        exact absurd hexadecimal (by decide)
    rw [written, List.cons_append, List.cons_append, skipBraced, skipBraced_plain plain]
  · rw [written]
    exact skipBraced_plain (by simp [quote, backslash]) depth rest

theorem balanced_quote (text : List Char) : Balanced (quote text) := by
  intro depth rest
  have inside : skipBraced depth true (text.flatMap escapeChar ++ '"' :: rest) =
      skipBraced depth true ('"' :: rest) := by
    induction text with
    | nil => rfl
    | cons c text ih => rw [List.flatMap_cons, List.append_assoc, skipBraced_escapeChar, ih]
  calc skipBraced depth false (quote text ++ rest)
      = skipBraced depth true (text.flatMap escapeChar ++ '"' :: rest) := by simp [quote, skipBraced]
    _ = skipBraced depth true ('"' :: rest) := inside
    _ = skipBraced depth false rest := by simp [skipBraced]

theorem balanced_intercalate {pieces : List (List Char)} (each : ∀ piece ∈ pieces, Balanced piece) :
    Balanced ([','].intercalate pieces) := by
  induction pieces with
  | nil => exact fun _ _ => rfl
  | cons piece pieces ih =>
      obtain ⟨first, later⟩ := List.forall_mem_cons.mp each
      cases pieces with
      | nil =>
          rw [List.intercalate_singleton]
          exact first
      | cons next others =>
          rw [List.intercalate_cons_cons]
          exact balanced_append (balanced_append first (balanced_of_all (by decide))) (ih later)

theorem bracket_compact (depth : Nat) (opening closing : Char) (pieces : List (List Char)) :
    Literal.bracket .compact depth opening closing pieces =
      opening :: ([','].intercalate pieces ++ [closing]) := by
  cases pieces with
  | nil => rfl
  | cons piece pieces => simp [Literal.bracket, Literal.Spacing.lineBreak]

theorem balanced_of_isPlain (plain : ∀ c ∈ text, Numeral.IsPlain c) : Balanced text := by
  apply balanced_solid
  intro c member
  have other : ∀ letter, ¬Numeral.IsPlain letter → c ≠ letter := by
    rintro letter unlike rfl
    exact unlike (plain c member)
  exact ⟨other '"' (by decide), other '\x7b' (by decide), other '\x7d' (by decide)⟩

theorem balanced_render (x : Binary64) : Balanced (x.render .literal) := by
  cases x with
  | nan => exact balanced_of_all (by decide)
  | infinite negative => cases negative <;> exact balanced_of_all (by decide)
  | finite x => exact balanced_of_isPlain fun _ => Numeral.isPlain_of_mem_render

theorem closed_balanced : Literal.Closed .compact Balanced where
  null := balanced_of_all (by decide)
  bool value := by cases value <;> exact balanced_of_all (by decide)
  integer _ := balanced_of_isPlain fun _ => Numeral.isPlain_of_mem_integerText
  number := balanced_render
  quoted := balanced_quote
  list depth pieces each := by
    have opening : Balanced ['['] := balanced_of_all (by decide)
    have closing : Balanced [']'] := balanced_of_all (by decide)
    have around := balanced_append opening (balanced_append (balanced_intercalate each) closing)
    rw [bracket_compact]
    exact around
  map depth pieces each := by
    have inner : Balanced ([','].intercalate pieces) := by
      apply balanced_intercalate
      intro piece member
      obtain ⟨name, text, rfl, balanced⟩ := each piece member
      exact balanced_append (balanced_append (balanced_quote name) (balanced_of_all (by decide))) balanced
    intro depth rest
    rw [bracket_compact, List.cons_append, List.append_assoc, skipBraced, inner]
    rfl

end Balancing

theorem nameOfAttribute_quoted {name text : String} (unnamed : '=' ∉ name.toList)
    (unquoted : '"' ∉ text.toList) (rest : List Char) :
    nameOfAttribute (name.toList ++ '=' :: '"' :: text.toList ++ ['"'] ++ rest) = some (name, rest) := by
  obtain ⟨before, behind⟩ := cut_at_separator unnamed (.inr ⟨'"' :: (text.toList ++ '"' :: rest), rfl⟩)
  obtain ⟨_, closing⟩ := cut_at_separator unquoted (.inr ⟨rest, rfl⟩)
  have split : name.toList ++ '=' :: '"' :: text.toList ++ ['"'] ++ rest =
      name.toList ++ '=' :: '"' :: (text.toList ++ '"' :: rest) := by simp
  simp only [split, nameOfAttribute, before, behind, closing, String.ofList_toList]

theorem nameOfAttribute_braced {name : String} {literal : List Char} (unnamed : '=' ∉ name.toList)
    (balanced : Balanced literal) (rest : List Char) :
    nameOfAttribute (name.toList ++ '=' :: '\x7b' :: literal ++ ['\x7d'] ++ rest) = some (name, rest) := by
  obtain ⟨before, behind⟩ := cut_at_separator unnamed (.inr ⟨'\x7b' :: (literal ++ '\x7d' :: rest), rfl⟩)
  have closes : skipBraced 0 false (literal ++ '\x7d' :: rest) = some rest := by
    rw [balanced]
    rfl
  have split : name.toList ++ '=' :: '\x7b' :: literal ++ ['\x7d'] ++ rest =
      name.toList ++ '=' :: '\x7b' :: (literal ++ '\x7d' :: rest) := by simp
  simp only [split, nameOfAttribute, before, behind, closes, Option.map_some, String.ofList_toList]

theorem nameOfAttribute_propText {name : String} {value : Value} {written : List Char}
    (unnamed : '=' ∉ name.toList) (succeeded : propText name value = .ok written) (rest : List Char) :
    nameOfAttribute (written ++ rest) = some (name, rest) := by
  have braced (bracedToo : (do
      let literal ← Literal.encode .compact value
      return name.toList ++ '=' :: '\x7b' :: literal ++ ['\x7d']) = Except.ok written) :
      nameOfAttribute (written ++ rest) = some (name, rest) := by
    obtain ⟨literal, encoded, same⟩ := exists_of_bind_eq_ok bracedToo
    obtain rfl := Except.ok.inj same
    exact nameOfAttribute_braced unnamed (closed_balanced.of_encodeAt encoded) rest
  cases value with
  | text text =>
      by_cases unsafe_ : text.toList.any isUnsafe
      · rw [propText, if_pos unsafe_] at succeeded
        exact braced succeeded
      · rw [propText, if_neg unsafe_] at succeeded
        obtain rfl := Except.ok.inj succeeded
        have unquoted : '"' ∉ text.toList := by
          intro inside
          exact unsafe_ (List.any_eq_true.mpr ⟨'"', inside, by decide⟩)
        exact nameOfAttribute_quoted unnamed unquoted rest
  | _ => exact braced succeeded

theorem nameOfAttribute_dataAttribute (rest : List Char) :
    nameOfAttribute (dataAttribute ++ rest) = some ("data", rest) := by
  have unnamed : '=' ∉ "data".toList := by decide
  obtain ⟨before, behind⟩ := cut_at_separator unnamed (.inr ⟨'\x7b' :: ("data\x7d".toList ++ rest), rfl⟩)
  have text : dataAttribute ++ rest = "data".toList ++ '=' :: '\x7b' :: ("data\x7d".toList ++ rest) := rfl
  have closes : skipBraced 0 false ("data\x7d".toList ++ rest) = some rest := rfl
  simp only [text, nameOfAttribute, before, behind, closes, Option.map_some, String.ofList_toList]

theorem attributeNames_cons {name : String} {piece rest : List Char} {names : List String} {fuel : Nat}
    (named : nameOfAttribute (piece ++ rest) = some (name, rest)) (others : attributeNames fuel rest = some names) :
    attributeNames (fuel + 1) ([' '] ++ piece ++ rest) = some (name :: names) := by
  rw [List.append_assoc, List.singleton_append, attributeNames, named]
  simp [others]

theorem attributeNames_props {props : Keyed Value} {pieces : List (List Char)}
    (unnamed : ∀ prop ∈ props, '=' ∉ prop.1.toList)
    (written : List.Forall₂ (fun prop piece => propText prop.1 prop.2 = .ok piece) props pieces) :
    ∀ fuel, pieces.length ≤ fuel →
      attributeNames fuel (pieces.flatMap ([' '] ++ ·)) = some props.keys := by
  induction written with
  | nil =>
      intro fuel _
      cases fuel <;> rfl
  | cons first _ ih =>
      intro fuel enough
      obtain ⟨here, later⟩ := List.forall_mem_cons.mp unnamed
      obtain ⟨fuel, rfl⟩ : ∃ less, fuel = less + 1 := ⟨fuel - 1, by simp only [List.length_cons] at enough; omega⟩
      have others := ih later fuel (by simpa using enough)
      rw [List.flatMap_cons]
      exact attributeNames_cons (nameOfAttribute_propText here first _) others

theorem nil_not_mem_written {props : Keyed Value} {pieces : List (List Char)}
    (unnamed : ∀ prop ∈ props, '=' ∉ prop.1.toList)
    (written : List.Forall₂ (fun prop piece => propText prop.1 prop.2 = .ok piece) props pieces) :
    [] ∉ pieces := by
  induction written with
  | nil => exact List.not_mem_nil
  | cons first _ ih =>
      obtain ⟨here, later⟩ := List.forall_mem_cons.mp unnamed
      intro member
      rcases List.mem_cons.mp member with rfl | inside
      · exact absurd (nameOfAttribute_propText here first []) nofun
      · exact ih later inside

theorem attributeNames_injection {attributes : List Char} {names : List String} {enough : Nat} (data : Bool)
    (read : ∀ fuel, enough ≤ fuel → attributeNames fuel attributes = some names) (fuel : Nat)
    (more : (injection data).length + enough ≤ fuel) :
    attributeNames fuel (injection data ++ attributes) =
      some ((if data then ["data"] else []) ++ names) := by
  cases data with
  | false => exact read fuel (by omega)
  | true =>
      have length : (injection true).length = 12 := by decide
      obtain ⟨fuel, rfl⟩ : ∃ less, fuel = less + 1 := ⟨fuel - 1, by omega⟩
      exact attributeNames_cons (nameOfAttribute_dataAttribute attributes) (read fuel (by omega))

theorem length_le_length_flatMap (pieces : List (List Char)) :
    pieces.length ≤ (pieces.flatMap ([' '] ++ ·)).length := by
  induction pieces with
  | nil => exact Nat.le_refl 0
  | cons piece pieces ih =>
      rw [List.flatMap_cons]
      simp only [List.length_append, List.length_cons]
      omega

theorem mem_valuedProps {props : Keyed Value} {prop : String × Value} :
    prop ∈ valuedProps props ↔ prop ∈ props ∧ prop.2 ≠ .null := by
  obtain ⟨name, value⟩ := prop
  rw [valuedProps, List.mem_filter]
  cases value <;> simp

theorem mem_keys_valuedProps {props : Keyed Value} {name : String} :
    name ∈ (valuedProps props).keys ↔ ∃ value, (name, value) ∈ props ∧ value ≠ .null := by
  simp [Keyed.keys, mem_valuedProps]

theorem nodup_names_iff {props : Keyed Value} (distinct : props.keys.Nodup) (data : Bool) :
    ((if data then ["data"] else []) ++ (valuedProps props).keys).Nodup ↔
      ¬(data = true ∧ ∃ value, ("data", value) ∈ props ∧ value ≠ .null) := by
  have valued : (valuedProps props).keys.Nodup := by
    rw [Keyed.keys, valuedProps]
    exact distinct.sublist (List.filter_sublist.map Prod.fst)
  rw [← mem_keys_valuedProps]
  cases data <;> simp [valued]

/-- A written tag has the names of its element's props, behind that of the injected attribute where the data is
injected. They are all different unless the data is injected beside a prop that has its name and a value. -/
theorem openTag_names {element : Element} {tag : List Char} (distinct : element.props.keys.Nodup)
    (unnamed : ∀ prop ∈ element.props, '=' ∉ prop.1.toList) (written : element.openTag = .ok tag) :
    ∃ attributes names, tag = element.type.toList ++ attributes ∧
      attributeNames attributes.length attributes = some names ∧
      names = (if needsData element.type (valuedProps element.props) then ["data"] else []) ++
        (valuedProps element.props).keys ∧
      (names.Nodup ↔ ¬(needsData element.type (valuedProps element.props) = true ∧
        ∃ value, ("data", value) ∈ element.props ∧ value ≠ .null)) := by
  obtain ⟨text, propsWritten, _⟩ := exists_of_bind_eq_ok written
  obtain ⟨pieces, mapped, _⟩ := exists_of_bind_eq_ok propsWritten
  rw [valuedProps_valuedProps] at mapped
  have each := forall₂_of_mapM_eq_ok mapped
  have free : ∀ prop ∈ valuedProps element.props, '=' ∉ prop.1.toList :=
    fun prop member => unnamed prop (mem_valuedProps.mp member).1
  have solid := nil_not_mem_written free each
  obtain rfl := Except.ok.inj (written.symm.trans (openTag_eq mapped solid))
  refine ⟨_, _, rfl, ?_, rfl, nodup_names_iff distinct _⟩
  apply attributeNames_injection _ (attributeNames_props free each)
  rw [List.length_append]
  exact Nat.add_le_add_left (length_le_length_flatMap pieces) _

def metricElement : Element where
  key := "k"
  type := "Metric"
  props := [("label", .text "\" data=\"x"), ("data", .null), ("valuePath", .text "/users"),
    ("range", .tuple [.float .nan, .text "\x7d data=\x7b0"])]
  children := none

theorem openTag_names_metric :
    metricElement.props.keys.Nodup ∧ ∃ tag attributes, metricElement.openTag = .ok tag ∧
      tag = "Metric".toList ++ attributes ∧
      attributeNames attributes.length attributes = some ["data", "label", "valuePath", "range"] := by
  have distinct : metricElement.props.keys.Nodup := by decide
  have unnamed : ∀ prop ∈ metricElement.props, '=' ∉ prop.1.toList := by
    intro prop member
    simp only [metricElement, List.mem_cons, List.not_mem_nil, or_false] at member
    rcases member with rfl | rfl | rfl | rfl <;> decide
  have written : metricElement.openTag = .ok ("Metric data=\x7bdata\x7d label=\x7b\"\\\" data=\\\"x\"\x7d " ++
      "valuePath=\"/users\" range=\x7b[NaN,\"\x7d data=\x7b0\"]\x7d").toList := by decide
  obtain ⟨attributes, names, split, read, rfl, _⟩ := openTag_names distinct unnamed written
  exact ⟨distinct, _, attributes, written, split, read⟩

def chartElement : Element where
  key := "a"
  type := "Chart"
  props := [("data", .text "x")]
  children := none

/-- The tag of the element has the data twice, and the prop stands behind the injected attribute. -/
theorem openTag_doubles_data :
    chartElement.openTag = .ok "Chart data=\x7bdata\x7d data=\"x\"".toList ∧
      attributeNames 21 " data=\x7bdata\x7d data=\"x\"".toList = some ["data", "data"] ∧
      ¬["data", "data"].Nodup := by
  refine ⟨by decide, by decide, by decide⟩

end Markup

end TreeExport
