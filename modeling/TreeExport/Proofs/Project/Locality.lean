import TreeExport.Proofs.Markup.Rendering
import TreeExport.Proofs.Tree.Reachable
import TreeExport.Project
import Mathlib.Data.Option.Basic

/-!
A build reads only what the root reaches. Two trees that hold alike elements at the keys that links lead
to from their common root are walked in lockstep, so they give the same project, whatever else they hold,
in whatever order, and whatever their elements call themselves.
-/

namespace TreeExport

/-- Whether two elements differ in nothing that markup shows: neither their own keys, nor props without a
value, nor an empty list of children in place of none. -/
structure Element.Alike (left right : Element) : Prop where
  type_eq : left.type = right.type
  props_eq : Markup.valuedProps left.props = Markup.valuedProps right.props
  childKeys_eq : left.childKeys = right.childKeys

theorem Element.Alike.openTag_eq {left right : Element} (alike : left.Alike right) :
    left.openTag = right.openTag := by
  rw [Element.openTag, Element.openTag, alike.type_eq, alike.props_eq]

namespace UITree

variable {left right : UITree} {limit : Int} {key : String}

/-- Whether two trees hold alike elements, or none, at every key that links of the first lead to. -/
def AlikeFrom (left right : UITree) (start : String) : Prop :=
  ∀ key, left.Reaches start key → Option.Rel Element.Alike (left.get? key) (right.get? key)

theorem AlikeFrom.child (alike : left.AlikeFrom right key) {element : Element}
    (found : left.get? key = some element) {child : String} (isChild : child ∈ element.childKeys) :
    left.AlikeFrom right child := by
  intro other reaches
  have link : left.Link key child := ⟨element, found, isChild⟩
  exact alike other (reaches.head link)

theorem AlikeFrom.get?_eq_none (alike : left.AlikeFrom right key) (missing : left.get? key = none) :
    right.get? key = none := by
  have related := alike key .refl
  rw [missing] at related
  cases held : right.get? key with
  | none => rfl
  | some other => rw [held] at related; exact absurd related nofun

theorem AlikeFrom.exists_get? (alike : left.AlikeFrom right key) {element : Element}
    (found : left.get? key = some element) :
    ∃ other, right.get? key = some other ∧ element.Alike other := by
  have related := alike key .refl
  rw [found] at related
  cases held : right.get? key with
  | none => rw [held] at related; exact absurd related nofun
  | some other =>
      rw [held] at related
      cases related with
      | some same => exact ⟨other, rfl, same⟩

theorem AlikeFrom.resolve_error (alike : left.AlikeFrom right key) {ancestors : List String}
    {defect : Defect} (resolved : left.resolve limit ancestors.reverse key = .error defect) :
    right.resolve limit ancestors.reverse key = .error defect := by
  rcases resolve_eq_error_iff.mp resolved with
    ⟨missing, rfl⟩ | ⟨held, inside, rfl⟩ | ⟨held, fresh, deep, rfl⟩
  · exact resolve_eq_error_iff.mpr (Or.inl ⟨alike.get?_eq_none missing, rfl⟩)
  · obtain ⟨element, found⟩ := Option.isSome_iff_exists.mp held
    obtain ⟨other, found, _⟩ := alike.exists_get? found
    exact resolve_eq_error_iff.mpr (Or.inr (Or.inl ⟨by simp [found], inside, rfl⟩))
  · obtain ⟨element, found⟩ := Option.isSome_iff_exists.mp held
    obtain ⟨other, found, _⟩ := alike.exists_get? found
    exact resolve_eq_error_iff.mpr (Or.inr (Or.inr ⟨by simp [found], fresh, deep, rfl⟩))

theorem AlikeFrom.resolve_ok (alike : left.AlikeFrom right key) {ancestors : List String}
    {element : Element} (resolved : left.resolve limit ancestors.reverse key = .ok element) :
    ∃ other, right.resolve limit ancestors.reverse key = .ok other ∧ element.Alike other := by
  obtain ⟨found, fresh, shallow⟩ := resolve_eq_ok_iff.mp resolved
  obtain ⟨other, found, same⟩ := alike.exists_get? found
  exact ⟨other, resolve_eq_ok_iff.mpr ⟨found, fresh, shallow⟩, same⟩

theorem rendering_eq_of_alike (alike : left.AlikeFrom right key) (ancestors : List String)
    (column : Int) :
    left.rendering limit key ancestors column = right.rendering limit key ancestors column := by
  induction key, ancestors using left.visit_induction limit generalizing column with
  | skipped key ancestors defect resolved =>
      rw [rendering_of_error resolved, rendering_of_error (alike.resolve_error resolved)]
  | entered key ancestors element resolved ih =>
      obtain ⟨other, resolved', same⟩ := alike.resolve_ok resolved
      have tag : ∀ line, Emission.ofTag element line = Emission.ofTag other line := by
        intro line
        rw [Emission.ofTag, Emission.ofTag, same.openTag_eq]
      by_cases leaf : element.childKeys = []
      · rw [rendering_of_leaf resolved leaf, rendering_of_leaf resolved' (same.childKeys_eq ▸ leaf),
          tag]
      · have found := (resolve_eq_ok_iff.mp resolved).1
        have children : element.childKeys.map (left.rendering limit · (ancestors ++ [key]) (column + 2)) =
            element.childKeys.map (right.rendering limit · (ancestors ++ [key]) (column + 2)) := by
          apply List.map_congr_left
          intro child isChild
          exact ih child (alike.child found isChild) (column + 2)
        rw [rendering_of_inner resolved leaf, rendering_of_inner resolved' (same.childKeys_eq ▸ leaf),
          tag, children, same.childKeys_eq, same.type_eq]

theorem emit_eq_of_alike (alike : left.AlikeFrom right key) (column : Int) :
    left.emit limit key column = right.emit limit key column := by
  rw [emit_eq_rendering, emit_eq_rendering, rendering_eq_of_alike alike]

theorem typesFrom_eq_of_alike {stack visited types : List String}
    (alike : ∀ key ∈ stack, left.AlikeFrom right key) :
    left.typesFrom stack visited types = right.typesFrom stack visited types := by
  fun_induction typesFrom left stack visited types with
  | case1 visited types => rw [typesFrom_nil]
  | case2 key stack visited types member ih =>
      rw [typesFrom_of_mem member, ih fun other inside => alike other (List.mem_cons_of_mem key inside)]
  | case3 key stack visited types fresh missing ih =>
      have missing' := (alike key List.mem_cons_self).get?_eq_none missing
      rw [typesFrom_of_none missing' fresh,
        ih fun other inside => alike other (List.mem_cons_of_mem key inside)]
  | case4 key stack visited types fresh element found ih =>
      have here := alike key List.mem_cons_self
      obtain ⟨other, found', same⟩ := here.exists_get? found
      rw [typesFrom_of_some found' fresh, ← same.childKeys_eq, ← same.type_eq]
      apply ih
      intro next inside
      rcases List.mem_append.mp inside with isChild | inside
      · exact here.child found isChild
      · exact alike next (List.mem_cons_of_mem key inside)

theorem usedTypes_eq_of_alike (root_eq : left.root = right.root)
    (alike : left.AlikeFrom right left.root) : left.usedTypes = right.usedTypes := by
  rw [usedTypes, usedTypes, ← root_eq]
  apply typesFrom_eq_of_alike
  intro key member
  rw [List.mem_singleton.mp member]
  exact alike

def rearranged : UITree where
  root := "a"
  elements := [
    ("z", ⟨"z", "Chart", [], some ["a"]⟩),
    ("d", ⟨"4", "Text", [("bindPath", .null)], some []⟩),
    ("c", ⟨"3", "Grid", [], some ["d", "ghost"]⟩),
    ("b", ⟨"2", "Card", [("data", .null), ("title", .text "x")], some ["c", "a"]⟩),
    ("a", ⟨"1", "Stack", [], some ["b", "c"]⟩)]

theorem alikeFrom_rearranged : tangled.AlikeFrom rearranged "a" := by
  have inside : ∀ key, tangled.Reaches "a" key → key ∈ ["a", "b", "c", "d", "ghost"] := by
    intro key reaches
    induction reaches with
    | refl => simp
    | @tail parent child _ link ih =>
        obtain ⟨element, found, isChild⟩ := link
        simp only [List.mem_cons, List.not_mem_nil, or_false] at ih
        rcases ih with rfl | rfl | rfl | rfl | rfl
        · cases found
          rcases List.mem_pair.mp isChild with rfl | rfl <;> simp
        · cases found
          rcases List.mem_pair.mp isChild with rfl | rfl <;> simp
        · cases found
          rcases List.mem_pair.mp isChild with rfl | rfl <;> simp
        · cases found
          exact absurd isChild (List.not_mem_nil)
        · exact absurd found nofun
  intro key reaches
  have member := inside key reaches
  simp only [List.mem_cons, List.not_mem_nil, or_false] at member
  rcases member with rfl | rfl | rfl | rfl | rfl
  · exact .some ⟨rfl, rfl, rfl⟩
  · exact .some ⟨rfl, rfl, rfl⟩
  · exact .some ⟨rfl, rfl, rfl⟩
  · exact .some ⟨rfl, rfl, rfl⟩
  · exact .none

end UITree

namespace Project

variable {registry : Registry} {limit : Int} {strict : Bool} {options : GeneratorOptions}

/-- Trees with one root that hold alike elements at all keys within its reach have the same builds, the
failing ones included. -/
theorem build_eq_of_alike {left right : UITree} (root_eq : left.root = right.root)
    (alike : left.AlikeFrom right left.root) :
    build registry limit strict left options = build registry limit strict right options := by
  have emitted : left.emit limit left.root pageColumn = right.emit limit right.root pageColumn := by
    rw [UITree.emit_eq_of_alike alike, root_eq]
  have same : outputOf registry limit left options = outputOf registry limit right options := by
    rw [outputOf, outputOf, outputListing, outputListing, UITree.usedTypes_eq_of_alike root_eq alike, emitted]
  rw [build_eq_accept, build_eq_accept, same]

theorem build_eq_of_alike_rearranged :
    UITree.tangled.root = UITree.rearranged.root ∧
    UITree.tangled.AlikeFrom UITree.rearranged UITree.tangled.root ∧
    build ⟨[("Text", "text")]⟩ 3 true UITree.tangled default =
      build ⟨[("Text", "text")]⟩ 3 true UITree.rearranged default :=
  ⟨rfl, UITree.alikeFrom_rearranged, build_eq_of_alike rfl UITree.alikeFrom_rearranged⟩

end Project

end TreeExport
