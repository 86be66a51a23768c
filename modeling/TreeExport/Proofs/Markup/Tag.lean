import TreeExport.Markup.Tag
import TreeExport.Proofs.Json.Writing

/-!
Opening tags read back. A tag is read from the left: the type up to the first space, the injected attribute,
then one attribute after the other, each up to its closing quote or brace. Nothing that a value holds can end
its attribute early, and no prop looks like the injected attribute, since no literal begins like its value.
-/

namespace TreeExport

namespace Markup

open Json (Spells)

def readAttribute (text : List Char) : Option ((String × Value) × List Char) :=
  let name := String.ofList (text.takeWhile (· != '='))
  match text.dropWhile (· != '=') with
  | '=' :: '"' :: rest =>
    match rest.dropWhile (· != '"') with
    | '"' :: behind => some ((name, .text (String.ofList (rest.takeWhile (· != '"')))), behind)
    | _ => none
  | '=' :: '\x7b' :: rest =>
    match Json.readValue rest.length rest with
    | .ok (value, '\x7d' :: behind) => some ((name, value), behind)
    | _ => none
  | _ => none

def readAttributes : (fuel : Nat) → List Char → Option (Keyed Value)
  | _, [] => some []
  | fuel + 1, ' ' :: text => do
    let (prop, rest) ← readAttribute text
    let props ← readAttributes fuel rest
    return prop :: props
  | _, _ => none

structure TagContent where
  type : String
  data : Bool
  props : Keyed Value

def readTag (tag : List Char) : Option TagContent := do
  let type := String.ofList (tag.takeWhile (· != ' '))
  let rest := tag.dropWhile (· != ' ')
  let injected := ' ' :: dataAttribute
  let data := injected.isPrefixOf rest
  let rest := if data then rest.drop injected.length else rest
  let props ← readAttributes rest.length rest
  return ⟨type, data, props⟩

theorem cut_at_separator {separator : Char} {text : List Char} (absent : separator ∉ text)
    {rest : List Char} (starts : rest = [] ∨ ∃ more, rest = separator :: more) :
    (text ++ rest).takeWhile (· != separator) = text ∧
      (text ++ rest).dropWhile (· != separator) = rest := by
  have all : ∀ c ∈ text, (c != separator) = true := by
    intro c inside
    rw [bne_iff_ne]
    rintro rfl
    exact absent inside
  rw [List.takeWhile_append_of_pos all, List.dropWhile_append_of_pos all]
  rcases starts with rfl | ⟨more, rfl⟩
  · exact ⟨List.append_nil text, rfl⟩
  · rw [List.takeWhile_cons_of_neg (by simp), List.dropWhile_cons_of_neg (by simp), List.append_nil]
    exact ⟨rfl, rfl⟩

theorem readAttribute_quoted {name text : String} (unnamed : '=' ∉ name.toList)
    (unquoted : '"' ∉ text.toList) (rest : List Char) :
    readAttribute (name.toList ++ '=' :: '"' :: (text.toList ++ '"' :: rest)) =
      some ((name, .text text), rest) := by
  obtain ⟨before, behind⟩ := cut_at_separator unnamed (.inr ⟨'"' :: (text.toList ++ '"' :: rest), rfl⟩)
  obtain ⟨inside, closing⟩ := cut_at_separator unquoted (.inr ⟨rest, rfl⟩)
  simp only [readAttribute, before, behind, inside, closing, String.ofList_toList]

theorem readAttribute_braced {name : String} {literal : List Char} {value : Value}
    (unnamed : '=' ∉ name.toList) (spells : Spells literal value) (rest : List Char) :
    readAttribute (name.toList ++ '=' :: '\x7b' :: (literal ++ '\x7d' :: rest)) =
      some ((name, value), rest) := by
  obtain ⟨before, behind⟩ := cut_at_separator unnamed
    (.inr ⟨'\x7b' :: (literal ++ '\x7d' :: rest), rfl⟩)
  have ends : Json.Ends ('\x7d' :: rest) :=
    Json.ends_cons rest (by decide) (by decide) (by decide) (by decide)
  have read := spells.reads.read (literal ++ '\x7d' :: rest).length _ (by simp) ends
  simp only [readAttribute, before, behind, read, String.ofList_toList]

theorem exists_propText {name : String} {value : Value} (unnamed : '=' ∉ name.toList)
    (json : value.IsJson) :
    ∃ written, propText name value = .ok written ∧
      ∀ rest, readAttribute (written ++ rest) = some ((name, value), rest) := by
  obtain ⟨literal, encoded, spells⟩ := Json.written_of_isJson .compact json 0
  have braced : ∀ rest, readAttribute ((name.toList ++ '=' :: '\x7b' :: literal ++ ['\x7d']) ++ rest) =
      some ((name, value), rest) := by
    intro rest
    rw [← readAttribute_braced unnamed spells rest]
    simp only [List.append_assoc, List.cons_append, List.nil_append]
  have encode : Literal.encode .compact value = .ok literal := encoded
  unfold propText
  rw [encode]
  cases value with
  | text text =>
      by_cases unsafe_ : text.toList.any isUnsafe
      · exact ⟨_, if_pos unsafe_, braced⟩
      · have unquoted : '"' ∉ text.toList := by
          intro inside
          exact unsafe_ (List.any_eq_true.mpr ⟨'"', inside, by decide⟩)
        refine ⟨_, if_neg unsafe_, ?_⟩
        intro rest
        rw [← readAttribute_quoted unnamed unquoted rest]
        simp only [List.append_assoc, List.cons_append, List.nil_append]
  | _ => exact ⟨_, rfl, braced⟩

/-- The injected attribute is no prop: its value is no literal. -/
theorem readAttribute_dataAttribute (rest : List Char) :
    readAttribute (dataAttribute ++ rest) = none := by
  have unnamed : '=' ∉ "data".toList := by decide
  have split : dataAttribute ++ rest = "data".toList ++ '=' :: '\x7b' :: ("data\x7d".toList ++ rest) := by
    rfl
  obtain ⟨_, behind⟩ := cut_at_separator unnamed
    (.inr ⟨'\x7b' :: ("data\x7d".toList ++ rest), rfl⟩)
  have unreadable : Json.readValue ("data\x7d".toList ++ rest).length ("data\x7d".toList ++ rest) =
      .error (.malformed .value ("data\x7d".toList ++ rest).length) := by
    have word : "data\x7d".toList = ['d', 'a', 't', 'a', '\x7d'] := by decide
    rw [word, List.cons_append, List.length_cons, Json.readValue_scalar (by decide)]
    simp [Json.readScalar, Json.names, Json.wholeDigits, Json.isDigit]
  rw [split]
  simp only [readAttribute, behind, unreadable]

theorem readAttributes_dataAttribute (fuel : Nat) (rest : List Char) :
    readAttributes fuel (' ' :: (dataAttribute ++ rest)) = none := by
  cases fuel with
  | zero => rfl
  | succ fuel => rw [readAttributes, readAttribute_dataAttribute]; rfl

theorem exists_attributes {props : Keyed Value}
    (plain : ∀ prop ∈ props, '=' ∉ prop.1.toList ∧ prop.2.IsJson) :
    ∃ pieces, (props.mapM fun (name, value) => propText name value) = .ok pieces ∧ [] ∉ pieces ∧
      ∀ fuel, (pieces.flatMap ([' '] ++ ·)).length ≤ fuel →
        readAttributes fuel (pieces.flatMap ([' '] ++ ·)) = some props := by
  induction props with
  | nil => exact ⟨[], rfl, nofun, fun fuel _ => by cases fuel <;> rfl⟩
  | cons prop props ih =>
      obtain ⟨name, value⟩ := prop
      obtain ⟨unnamed, json⟩ := plain (name, value) List.mem_cons_self
      obtain ⟨piece, first, read⟩ := exists_propText unnamed json
      obtain ⟨pieces, others, filled, readOthers⟩ := ih fun other inside =>
        plain other (List.mem_cons_of_mem _ inside)
      have solid : piece ≠ [] := by
        rintro rfl
        exact absurd (read []) (by simp [readAttribute])
      refine ⟨piece :: pieces, ?_, by simp [filled, Ne.symm solid], ?_⟩
      · rw [List.mapM_cons, bind_of_eq_ok first, bind_of_eq_ok others]
        rfl
      · intro fuel enough
        rw [List.flatMap_cons, List.singleton_append, List.cons_append] at enough ⊢
        simp only [List.length_cons, List.length_append] at enough
        obtain ⟨fuel, rfl⟩ : ∃ less, fuel = less + 1 := ⟨fuel - 1, by omega⟩
        have behind := readOthers fuel (by omega)
        rw [readAttributes, read]
        simp only [behind, bind, Option.bind, pure]

theorem valuedProps_valuedProps (props : Keyed Value) :
    valuedProps (valuedProps props) = valuedProps props := by
  simp [valuedProps, List.filter_filter]

def injection (data : Bool) : List Char :=
  if data then ' ' :: dataAttribute else []

theorem openTag_eq {element : Element} {pieces : List (List Char)}
    (written : ((valuedProps element.props).mapM fun (name, value) => propText name value) = .ok pieces)
    (solid : [] ∉ pieces) :
    element.openTag = .ok (element.type.toList ++
      (injection (needsData element.type (valuedProps element.props)) ++
        pieces.flatMap ([' '] ++ ·))) := by
  have text : propsText (valuedProps element.props) = .ok ([' '].intercalate pieces) := by
    rw [propsText, valuedProps_valuedProps, bind_of_eq_ok written]
    rfl
  have attributes : (if ([' '].intercalate pieces).isEmpty then [] else [[' '].intercalate pieces]).flatMap
      ([' '] ++ ·) = pieces.flatMap ([' '] ++ ·) := by
    cases pieces with
    | nil => rfl
    | cons piece pieces =>
        have filled : piece ≠ [] := fun none => solid (by simp [none])
        rw [Text.intercalate_cons_eq_append, if_neg (by simp [filled])]
        simp
  have injected : (if needsData element.type (valuedProps element.props) then [dataAttribute]
      else []).flatMap ([' '] ++ ·) = injection (needsData element.type (valuedProps element.props)) := by
    unfold injection
    split
    · simp
    · rfl
  rw [Element.openTag, bind_of_eq_ok text]
  dsimp only
  rw [Text.intercalate_cons_eq_append, List.flatMap_append, attributes, injected]
  rfl

theorem isPrefixOf_injected {fuel : Nat} {attributes : List Char} {props : Keyed Value}
    (read : readAttributes fuel attributes = some props) :
    (' ' :: dataAttribute).isPrefixOf attributes = false := by
  rw [Bool.eq_false_iff]
  intro looksInjected
  obtain ⟨rest, split⟩ := List.isPrefixOf_iff_prefix.mp looksInjected
  rw [← split, List.cons_append, readAttributes_dataAttribute] at read
  simp at read

theorem readTag_eq {type : String} (data : Bool) {attributes : List Char} {props : Keyed Value}
    (oneWord : ' ' ∉ type.toList) (starts : attributes = [] ∨ ∃ more, attributes = ' ' :: more)
    (read : readAttributes attributes.length attributes = some props) :
    readTag (type.toList ++ (injection data ++ attributes)) = some ⟨type, data, props⟩ := by
  have behind : injection data ++ attributes = [] ∨
      ∃ more, injection data ++ attributes = ' ' :: more := by
    cases data with
    | false => exact starts
    | true => exact Or.inr ⟨_, rfl⟩
  obtain ⟨word, rest⟩ := cut_at_separator oneWord behind
  unfold readTag
  dsimp only
  rw [word, rest, String.ofList_toList]
  cases data with
  | false =>
      have plain : injection false ++ attributes = attributes := rfl
      rw [plain, isPrefixOf_injected read]
      simp only [Bool.false_eq_true, if_false, read]
      rfl
  | true =>
      have injected : injection true ++ attributes = ' ' :: dataAttribute ++ attributes := rfl
      have marked : (' ' :: dataAttribute).isPrefixOf (' ' :: dataAttribute ++ attributes) = true :=
        List.isPrefixOf_iff_prefix.mpr (List.prefix_append _ _)
      rw [injected, marked, if_pos rfl, List.drop_left, read]
      rfl

end Markup

/-- Whether a tag of an element can be read back: its type is one word, no name of a prop holds an equals
sign, and all its values have a literal. -/
structure Element.Plain (element : Element) : Prop where
  oneWord : ' ' ∉ element.type.toList
  names : ∀ prop ∈ Markup.valuedProps element.props, '=' ∉ prop.1.toList
  values : ∀ prop ∈ Markup.valuedProps element.props, prop.2.IsJson

namespace Markup

theorem exists_tag {element : Element} (plain : element.Plain) :
    ∃ tag, element.openTag = .ok tag ∧ readTag tag = some ⟨element.type,
      needsData element.type (valuedProps element.props), valuedProps element.props⟩ := by
  obtain ⟨pieces, written, solid, read⟩ := exists_attributes fun prop inside =>
    ⟨plain.names prop inside, plain.values prop inside⟩
  refine ⟨_, openTag_eq written solid, readTag_eq _ plain.oneWord ?_ (read _ (Nat.le_refl _))⟩
  cases pieces with
  | nil => exact Or.inl rfl
  | cons piece pieces => exact Or.inr ⟨_, rfl⟩

theorem needsData_iff {type : String} {props : Keyed Value} :
    needsData type props ↔ type ∈ ["Chart", "Table", "Metric", "List"] ∨
      ∃ prop ∈ props, "Path".toList <:+ prop.1.toList := by
  -- The two names that are listed beside the suffix end with it.
  have named : ∀ name, isDataProp name = true ↔ "Path".toList <:+ name.toList := by
    intro name
    have listed : ∀ name ∈ ["bindPath", "dataPath"], "Path".toList <:+ name.toList := by decide
    simp only [isDataProp, Bool.or_eq_true, beq_iff_eq, List.isSuffixOf_iff_suffix]
    constructor
    · rintro ((suffix | rfl) | rfl)
      · exact suffix
      · exact listed _ (by simp)
      · exact listed _ (by simp)
    · exact fun suffix => Or.inl (Or.inl suffix)
  simp only [needsData, dataComponents, Bool.or_eq_true, List.contains_iff_mem, List.any_eq_true, named]

/-- The opening tag of an element gives back its type, whether the data is injected, and its props that have a
value; so elements with one tag differ in nothing that the tag is made from. -/
theorem readTag_openTag {element : Element} (plain : element.Plain) :
    ∃ tag data, element.openTag = .ok tag ∧
      readTag tag = some ⟨element.type, data, valuedProps element.props⟩ ∧
      (data = true ↔ element.type ∈ ["Chart", "Table", "Metric", "List"] ∨
        ∃ prop ∈ valuedProps element.props, "Path".toList <:+ prop.1.toList) ∧
      ∀ other : Element, other.Plain → other.openTag = .ok tag →
        other.type = element.type ∧ valuedProps other.props = valuedProps element.props := by
  obtain ⟨tag, written, read⟩ := exists_tag plain
  refine ⟨tag, _, written, read, needsData_iff, ?_⟩
  intro other otherPlain same
  obtain ⟨otherTag, otherWritten, otherRead⟩ := exists_tag otherPlain
  obtain rfl : otherTag = tag := Except.ok.inj (otherWritten.symm.trans same)
  have contents := Option.some.inj (otherRead.symm.trans read)
  exact ⟨congrArg TagContent.type contents, congrArg TagContent.props contents⟩

def trickyElement : Element where
  key := "k"
  type := "Gauge"
  props := [
    ("title", .text "1 \x7d data=\x7bdata\x7d"),
    ("data", .text "a=\"b\""),
    ("hidden", .null),
    ("items", .list [.text "\x7d c=\"d\"", .null, .int (-7)]),
    ("bindPath", .text "7")]
  children := none

theorem readTag_openTag_tricky :
    trickyElement.Plain ∧ ∃ tag, trickyElement.openTag = .ok tag ∧
      readTag tag = some ⟨"Gauge", true, [
        ("title", .text "1 \x7d data=\x7bdata\x7d"),
        ("data", .text "a=\"b\""),
        ("items", .list [.text "\x7d c=\"d\"", .null, .int (-7)]),
        ("bindPath", .text "7")]⟩ := by
  have valued : valuedProps trickyElement.props = [
      ("title", .text "1 \x7d data=\x7bdata\x7d"),
      ("data", .text "a=\"b\""),
      ("items", .list [.text "\x7d c=\"d\"", .null, .int (-7)]),
      ("bindPath", .text "7")] := rfl
  have items : ∀ item ∈ [Value.text "\x7d c=\"d\"", .null, .int (-7)], item.IsJson := by
    intro item member
    simp only [List.mem_cons, List.not_mem_nil, or_false] at member
    rcases member with rfl | rfl | rfl
    · exact .text _
    · exact .null
    · exact .int (by decide)
  have plain : trickyElement.Plain := by
    refine ⟨by decide, ?_, ?_⟩
    · rw [valued]
      intro prop member
      simp only [List.mem_cons, List.not_mem_nil, or_false] at member
      rcases member with rfl | rfl | rfl | rfl <;> decide
    · rw [valued]
      intro prop member
      simp only [List.mem_cons, List.not_mem_nil, or_false] at member
      rcases member with rfl | rfl | rfl | rfl
      · exact .text _
      · exact .text _
      · exact .list items
      · exact .text _
  obtain ⟨tag, data, written, read, injected, _⟩ := readTag_openTag plain
  rw [valued] at read injected
  obtain rfl : data = true := injected.mpr (Or.inr ⟨("bindPath", .text "7"), by simp, by decide⟩)
  exact ⟨plain, tag, written, read⟩

end Markup

end TreeExport
