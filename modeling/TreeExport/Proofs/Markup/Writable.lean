import TreeExport.Proofs.Literal.Writable
import TreeExport.Proofs.Markup.Depth
import TreeExport.Proofs.Markup.Tag

/-!
When markup can be written. A tag has a text exactly if all props of its element have literals, and a walk
ends well exactly if that holds for every element that it comes to.
-/

namespace TreeExport

namespace Markup

theorem exists_propText_iff {name : String} {value : Value} :
    (∃ text, propText name value = .ok text) ↔ value.Writable := by
  have braced (value : Value) : (∃ text, (do
      let literal ← Literal.encode .compact value
      return name.toList ++ '=' :: '\x7b' :: literal ++ ['\x7d'] : Except Literal.Error (List Char)) =
        .ok text) ↔ value.Writable := by
    simp only [exists_bind_eq_ok_iff, exists_pure_eq_ok, and_true]
    exact Literal.exists_encodeAt_iff 0 value
  cases value with
  | text text =>
      by_cases special : text.toList.any isUnsafe
      · simp only [propText, if_pos special]
        exact braced (.text text)
      · have plain : (Value.text text).Writable := Value.writable_of_scalar (Or.inl trivial) trivial
        simp [propText, special, plain]
  | _ => exact braced _

end Markup

theorem Element.exists_openTag_iff {element : Element} :
    (∃ tag, element.openTag = .ok tag) ↔ ∀ prop ∈ element.props, prop.2.Writable := by
  have written : (∃ tag, element.openTag = .ok tag) ↔
      ∀ prop ∈ Markup.valuedProps element.props, prop.2.Writable := by
    simp only [openTag, Markup.propsText, Markup.valuedProps_valuedProps, exists_bind_eq_ok_iff,
      exists_pure_eq_ok, and_true, exists_mapM_eq_ok_iff, Markup.exists_propText_iff]
  rw [written]
  constructor
  · intro each prop member
    cases value : prop.2 with
    | null => exact Value.writable_of_scalar (Or.inl trivial) trivial
    | _ => exact value ▸ each prop (by simp [Markup.valuedProps, member, value])
  · intro each prop member
    exact each prop (List.mem_of_mem_filter member)

namespace Emission

theorem exists_append_iff {first second : Emission} :
    (∃ lines, (first ++ second).outcome = .ok lines) ↔
      (∃ lines, first.outcome = .ok lines) ∧ ∃ lines, second.outcome = .ok lines := by
  obtain ⟨defects, outcome⟩ := first
  cases outcome with
  | error failure => simp [error_append]
  | ok lines => simp [ok_append, exists_map_eq_ok_iff]

theorem exists_concat_iff {parts : List Emission} :
    (∃ lines, (concat parts).outcome = .ok lines) ↔
      ∀ part ∈ parts, ∃ lines, part.outcome = .ok lines := by
  induction parts with
  | nil => simp [empty]
  | cons part parts ih => rw [concat_cons, exists_append_iff, ih, List.forall_mem_cons]

end Emission

namespace UITree

variable {tree : UITree} {limit : Int} {start : String}

theorem exists_rendering_iff {key : String} {ancestors : List String} {column : Int} :
    (∃ lines, (tree.rendering limit key ancestors column).outcome = .ok lines) ↔
      ∀ other ∈ tree.written limit key ancestors, ∀ element, tree.get? other = some element →
        ∃ tag, element.openTag = .ok tag := by
  induction key, ancestors using tree.visit_induction limit generalizing column with
  | skipped key ancestors defect resolved =>
      simp [rendering_of_error resolved, written_of_error resolved, Emission.ofDefect]
  | entered key ancestors element resolved ih =>
      have found := (resolve_eq_ok_iff.mp resolved).1
      have here (line : List Char → Line) :
          (∃ lines, (Emission.ofTag element line).outcome = .ok lines) ↔
            ∀ own, tree.get? key = some own → ∃ tag, own.openTag = .ok tag := by
        simp [Emission.ofTag, exists_map_eq_ok_iff, found]
      rw [written_of_ok resolved, List.forall_mem_cons]
      by_cases leaf : element.childKeys = []
      · rw [rendering_of_leaf resolved leaf, here, leaf]
        simp
      · have last : ∃ lines, (Emission.ofLine (.closing column element.type)).outcome = .ok lines :=
          ⟨_, rfl⟩
        rw [rendering_of_inner resolved leaf, Emission.exists_append_iff, Emission.exists_append_iff,
          here, Emission.exists_concat_iff, List.forall_mem_map, and_iff_left last]
        apply and_congr_right'
        constructor
        · intro each other member
          obtain ⟨child, isChild, inside⟩ := List.mem_flatMap.mp member
          exact (ih child).mp (each child isChild) other inside
        · intro each child isChild
          exact (ih child).mpr fun other inside => each other (List.mem_flatMap.mpr ⟨child, isChild, inside⟩)

/-- Markup can be written exactly if all props have literals of the elements that chains with fewer links
than the limit lead to. -/
theorem exists_emit_iff {column : Int} :
    (∃ lines, (tree.emit limit start column).outcome = .ok lines) ↔
      ∀ above key element, tree.Chain start above key → (above.length : Int) < limit →
        tree.get? key = some element → ∀ prop ∈ element.props, prop.2.Writable := by
  rw [emit_eq_rendering, exists_rendering_iff]
  constructor
  · intro each above key element chain shallow found
    have written := mem_written_iff.mpr ⟨above, chain, ⟨element, found⟩, shallow⟩
    exact Element.exists_openTag_iff.mp (each key written element found)
  · intro each key written element found
    obtain ⟨above, chain, _, shallow⟩ := mem_written_iff.mp written
    exact Element.exists_openTag_iff.mpr (each above key element chain shallow found)

end UITree

end TreeExport
