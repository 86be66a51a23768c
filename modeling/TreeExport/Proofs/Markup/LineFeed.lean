import TreeExport.Proofs.Literal.Compact
import TreeExport.Proofs.Markup.Line
import TreeExport.Proofs.Markup.Tag

/-!
Lines in a text. A tag is on one line if the names in it are: the values of its props are written between
quotes, where a line feed is not allowed, or as literals, which escape it.
-/

namespace TreeExport

namespace Text

def linesOf (text : List Char) : List (List Char) :=
  if text = [] then [] else split '\n' text

theorem linesOf_intercalate {lines : List (List Char)} (solid : [] ∉ lines)
    (free : ∀ line ∈ lines, '\n' ∉ line) : linesOf (['\n'].intercalate lines) = lines := by
  cases lines with
  | nil => rfl
  | cons line lines =>
      have filled : ['\n'].intercalate (line :: lines) ≠ [] := by
        rw [intercalate_cons_eq_append]
        intro empty
        have blank : line = [] := (List.append_eq_nil_iff.mp empty).1
        exact solid (blank ▸ List.mem_cons_self)
      rw [linesOf, if_neg filled, split_intercalate (List.cons_ne_nil line lines) free]

end Text

structure Element.Unbroken (element : Element) : Prop where
  type : '\n' ∉ element.type.toList
  names : ∀ prop ∈ Markup.valuedProps element.props, '\n' ∉ prop.1.toList

namespace Markup

theorem lineFeed_not_mem_propText {name : String} {value : Value} {text : List Char}
    (unbroken : '\n' ∉ name.toList) (written : propText name value = .ok text) : '\n' ∉ text := by
  have braced : ∀ text, (do
      let literal ← Literal.encode .compact value
      return name.toList ++ '=' :: '\x7b' :: literal ++ ['\x7d']) = Except.ok text → '\n' ∉ text := by
    intro text written
    obtain ⟨literal, encoded, same⟩ := exists_of_bind_eq_ok written
    obtain rfl := Except.ok.inj same
    have free := (Literal.visible_encodeAt 0 value literal encoded).lineFeed_not_mem
    simp [unbroken, free]
  unfold propText at written
  cases value with
  | text value =>
      by_cases special : value.toList.any isUnsafe
      · exact braced text ((if_pos special).symm.trans written)
      · obtain rfl := Except.ok.inj ((if_neg special).symm.trans written)
        have free : '\n' ∉ value.toList := by
          intro inside
          exact special (List.any_eq_true.mpr ⟨'\n', inside, by decide⟩)
        simp [unbroken, free]
  | _ => exact braced text written

theorem lineFeed_not_mem_propsText {props : Keyed Value} {text : List Char}
    (unbroken : ∀ prop ∈ valuedProps props, '\n' ∉ prop.1.toList) (written : propsText props = .ok text) :
    '\n' ∉ text := by
  obtain ⟨pieces, made, same⟩ := exists_of_bind_eq_ok written
  obtain rfl := Except.ok.inj same
  have free := ((List.forall₂_and_left _ _).mpr ⟨unbroken, forall₂_of_mapM_eq_ok made⟩).imp
    fun _ _ both => And.intro (lineFeed_not_mem_propText both.1 both.2) trivial
  exact Text.not_mem_intercalate (by decide) ((List.forall₂_and_left _ _).mp free.flip).1

end Markup

theorem Element.lineFeed_not_mem_openTag {element : Element} (unbroken : element.Unbroken) {tag : List Char}
    (written : element.openTag = .ok tag) : '\n' ∉ tag := by
  obtain ⟨attributes, made, same⟩ := exists_of_bind_eq_ok written
  obtain rfl := Except.ok.inj same
  have free : '\n' ∉ attributes := by
    apply Markup.lineFeed_not_mem_propsText _ made
    rw [Markup.valuedProps_valuedProps]
    exact unbroken.names
  apply Text.not_mem_intercalate (by decide)
  rw [List.forall_mem_cons, List.forall_mem_append]
  refine ⟨unbroken.type, ?_, ?_⟩
  · split
    · exact List.forall_mem_singleton.mpr (by decide)
    · exact nofun
  · split
    · exact nofun
    · exact List.forall_mem_singleton.mpr free

theorem Line.lineFeed_not_mem_text {line : Line} {element : Element} (tagged : line.TagOf element)
    (unbroken : element.Unbroken) : '\n' ∉ line.text := by
  have free : '\n' ∉ line.content := by
    cases line with
    | opening column key tag => simp [content, element.lineFeed_not_mem_openTag unbroken tagged]
    | single column key tag => simp [content, element.lineFeed_not_mem_openTag unbroken tagged]
    | closing column component =>
        obtain rfl : component = element.type := tagged
        simp [content, unbroken.type]
  simp [text, free]

end TreeExport
