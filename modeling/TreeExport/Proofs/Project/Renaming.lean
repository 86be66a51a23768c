import TreeExport.Project
import TreeExport.Proofs.Markup.Rendering
import TreeExport.Proofs.Tree.Reachable
import Mathlib.Logic.Function.Basic

/-!
Keys are only compared with each other. A tree whose keys are renamed one to one is walked in lockstep
with the tree itself, so its project has the same files, and its defects name the new keys in the places
of the old ones.
-/

namespace TreeExport

variable {f : String → String}

def Defect.rename (f : String → String) : Defect → Defect
  | .missingElement key => .missingElement (f key)
  | .cycle ancestors key => .cycle (ancestors.map f) (f key)
  | .depthLimit key limit => .depthLimit (f key) limit
  | .missingTemplate component => .missingTemplate component

def Line.rename (f : String → String) : Line → Line
  | .opening column key tag => .opening column (f key) tag
  | .closing column component => .closing column component
  | .single column key tag => .single column (f key) tag

@[simp] theorem Line.text_rename (f : String → String) (line : Line) :
    (line.rename f).text = line.text := by
  cases line <;> rfl

/-- An element whose children have other keys. What it calls itself stays. -/
def Element.rename (f : String → String) (element : Element) : Element :=
  { element with children := element.children.map (List.map f) }

@[simp] theorem Element.childKeys_rename (f : String → String) (element : Element) :
    (element.rename f).childKeys = element.childKeys.map f := by
  obtain ⟨key, type, props, children⟩ := element
  cases children <;> rfl

@[simp] theorem Element.openTag_rename (f : String → String) (element : Element) :
    (element.rename f).openTag = element.openTag := rfl

namespace Emission

def rename (f : String → String) (emission : Emission) : Emission :=
  ⟨emission.defects.map (Defect.rename f), emission.outcome.map (List.map (Line.rename f))⟩

theorem rename_append (first second : Emission) :
    (first ++ second).rename f = first.rename f ++ second.rename f := by
  obtain ⟨defects, outcome⟩ := first
  cases outcome with
  | error failure => rfl
  | ok lines =>
      obtain ⟨others, outcome⟩ := second
      cases outcome with
      | error failure => simp [rename, ok_append, Except.map]
      | ok more => simp [rename, ok_append, Except.map]

theorem rename_concat (parts : List Emission) :
    (concat parts).rename f = concat (parts.map (rename f)) := by
  induction parts with
  | nil => rfl
  | cons part parts ih => rw [concat_cons, rename_append, ih, List.map_cons, concat_cons]

theorem text_rename (emission : Emission) : (emission.rename f).text = emission.text := by
  obtain ⟨defects, outcome⟩ := emission
  cases outcome with
  | error failure => rfl
  | ok lines =>
      have texts : (lines.map (Line.rename f)).map Line.text = lines.map Line.text := by
        rw [List.map_map]
        exact List.map_congr_left fun line _ => line.text_rename f
      simp [text, rename, joinLines, Except.map, texts]

end Emission

namespace UITree

variable {tree : UITree} {limit : Int}

def rename (f : String → String) (tree : UITree) : UITree where
  root := f tree.root
  elements := tree.elements.map fun entry => (f entry.1, entry.2.rename f)

theorem get?_rename (injective : Function.Injective f) (tree : UITree) (key : String) :
    (tree.rename f).get? (f key) = (tree.get? key).map (Element.rename f) := by
  obtain ⟨root, elements⟩ := tree
  simp only [get?, rename]
  induction elements with
  | nil => rfl
  | cons entry elements ih =>
      obtain ⟨k, element⟩ := entry
      simp only [List.map_cons, Keyed.get?_cons, injective.eq_iff, ih]
      split <;> rfl

theorem resolve_rename_error (injective : Function.Injective f) {ancestors : List String}
    {key : String} {defect : Defect}
    (resolved : tree.resolve limit ancestors.reverse key = .error defect) :
    (tree.rename f).resolve limit (ancestors.map f).reverse (f key) = .error (defect.rename f) := by
  rw [resolve_eq_error_iff, get?_rename injective, List.mem_map_of_injective injective,
    List.length_map]
  rcases resolve_eq_error_iff.mp resolved with
    ⟨missing, rfl⟩ | ⟨held, inside, rfl⟩ | ⟨held, fresh, deep, rfl⟩
  · exact Or.inl ⟨by rw [missing, Option.map_none], rfl⟩
  · exact Or.inr (Or.inl ⟨by rwa [Option.isSome_map], inside, rfl⟩)
  · exact Or.inr (Or.inr ⟨by rwa [Option.isSome_map], fresh, deep, rfl⟩)

theorem resolve_rename_ok (injective : Function.Injective f) {ancestors : List String}
    {key : String} {element : Element}
    (resolved : tree.resolve limit ancestors.reverse key = .ok element) :
    (tree.rename f).resolve limit (ancestors.map f).reverse (f key) = .ok (element.rename f) := by
  obtain ⟨found, fresh, shallow⟩ := resolve_eq_ok_iff.mp resolved
  rw [resolve_eq_ok_iff, get?_rename injective, List.mem_map_of_injective injective,
    List.length_map]
  exact ⟨by rw [found, Option.map_some], fresh, shallow⟩

theorem ofTag_rename (element : Element) (line : List Char → Line) :
    (Emission.ofTag element line).rename f =
      Emission.ofTag (element.rename f) fun tag => (line tag).rename f := by
  simp only [Emission.ofTag, Element.openTag_rename, Emission.rename]
  cases element.openTag <;> rfl

theorem rendering_rename (injective : Function.Injective f) (key : String)
    (ancestors : List String) (column : Int) :
    (tree.rename f).rendering limit (f key) (ancestors.map f) column =
      (tree.rendering limit key ancestors column).rename f := by
  -- The induction follows the walk of the tree itself; the other walk takes the same turn at each visit.
  induction key, ancestors using tree.visit_induction limit generalizing column with
  | skipped key ancestors defect resolved =>
      have resolved' := resolve_rename_error injective resolved
      rw [rendering_of_error resolved, rendering_of_error resolved']
      rfl
  | entered key ancestors element resolved ih =>
      have resolved' := resolve_rename_ok injective resolved
      by_cases leaf : element.childKeys = []
      · have leaf' : (element.rename f).childKeys = [] := by simp [leaf]
        rw [rendering_of_leaf resolved leaf, rendering_of_leaf resolved' leaf', ofTag_rename]
        rfl
      · have inner' : (element.rename f).childKeys ≠ [] := by simp [leaf]
        have children : (element.rename f).childKeys.map
            ((tree.rename f).rendering limit · (ancestors.map f ++ [f key]) (column + 2)) =
            (element.childKeys.map
              (tree.rendering limit · (ancestors ++ [key]) (column + 2))).map (Emission.rename f) := by
          rw [Element.childKeys_rename, List.map_map, List.map_map]
          apply List.map_congr_left
          intro child _
          have below := ih child (column + 2)
          rwa [List.map_append, List.map_singleton] at below
        rw [rendering_of_inner resolved leaf, rendering_of_inner resolved' inner', children,
          Emission.rename_append, Emission.rename_append, Emission.rename_concat, ofTag_rename]
        rfl

theorem emit_rename (injective : Function.Injective f) (key : String) (column : Int) :
    (tree.rename f).emit limit (f key) column = (tree.emit limit key column).rename f := by
  rw [emit_eq_rendering, emit_eq_rendering]
  exact rendering_rename injective key [] column

theorem typesFrom_rename (injective : Function.Injective f) (stack visited types : List String) :
    (tree.rename f).typesFrom (stack.map f) (visited.map f) types =
      tree.typesFrom stack visited types := by
  fun_induction typesFrom tree stack visited types with
  | case1 visited types => exact typesFrom_nil (tree.rename f) (visited.map f) types
  | case2 key stack visited types member ih =>
      rw [List.map_cons, typesFrom_of_mem (List.mem_map_of_mem member), ih]
  | case3 key stack visited types fresh missing ih =>
      have missing' : (tree.rename f).get? (f key) = none := by
        rw [get?_rename injective, missing, Option.map_none]
      have fresh' : f key ∉ visited.map f := by simpa [injective.eq_iff] using fresh
      rw [List.map_cons, typesFrom_of_none missing' fresh', ← List.map_cons, ih]
  | case4 key stack visited types fresh element found ih =>
      have found' : (tree.rename f).get? (f key) = some (element.rename f) := by
        rw [get?_rename injective, found, Option.map_some]
      have fresh' : f key ∉ visited.map f := by simpa [injective.eq_iff] using fresh
      rw [List.map_cons, typesFrom_of_some found' fresh', Element.childKeys_rename,
        ← List.map_append, ← List.map_cons]
      exact ih

theorem usedTypes_rename (injective : Function.Injective f) (tree : UITree) :
    (tree.rename f).usedTypes = tree.usedTypes :=
  typesFrom_rename injective [tree.root] [] []

end UITree

namespace Project

variable {registry : Registry} {limit : Int} {tree : UITree} {options : GeneratorOptions}

def Output.rename (f : String → String) (output : Output) : Output :=
  ⟨output.files, output.defects.map (Defect.rename f)⟩

theorem outputOf_rename (injective : Function.Injective f) :
    outputOf registry limit (tree.rename f) options =
      (outputOf registry limit tree options).map (Output.rename f) := by
  have emitted : (tree.rename f).emit limit (tree.rename f).root pageColumn =
      (tree.emit limit tree.root pageColumn).rename f := UITree.emit_rename injective tree.root pageColumn
  have kept (missing : List String) :
      (missing.map Defect.missingTemplate).map (Defect.rename f) = missing.map .missingTemplate := by
    rw [List.map_map]
    rfl
  change _ = Output.rename f <$> _
  simp only [outputOf, outputListing, UITree.usedTypes_rename injective, emitted, Emission.text_rename, map_bind,
    map_pure, Output.rename, List.map_append, kept]
  rfl

/-- A tolerant build of a tree whose keys are renamed one to one fails as the build of the tree does, or
gives the same files and the same defects under the new keys. -/
theorem build_rename (injective : Function.Injective f) (registry : Registry) (limit : Int)
    (tree : UITree) (options : GeneratorOptions) :
    build registry limit false (tree.rename f) options =
      (build registry limit false tree options).map (Output.rename f) := by
  simp only [build_eq_accept, accept, outputOf_rename injective]
  cases outputOf registry limit tree options <;> rfl

/-- The small tree under longer keys, built three levels deep. -/
theorem build_rename_tangled :
    Function.Injective (· ++ "'") ∧
    ∃ output, build ⟨[("Text", "text")]⟩ 3 false UITree.tangled default = .ok output ∧
      build ⟨[("Text", "text")]⟩ 3 false (UITree.tangled.rename (· ++ "'")) default =
        .ok ⟨output.files, [
          .depthLimit "d'" 3, .missingElement "ghost'", .cycle ["a'", "b'"] "a'",
          .missingElement "ghost'", .missingTemplate "Card", .missingTemplate "Grid",
          .missingTemplate "Stack"]⟩ := by
  have injective : Function.Injective (fun key : String => key ++ "'") := by
    intro left right same
    simpa using same
  have used : UITree.tangled.usedTypes = ["Stack", "Card", "Grid", "Text"] := by cbv
  have met : (outputOf ⟨[("Text", "text")]⟩ 3 UITree.tangled default).toOption.map Output.defects =
      some [.depthLimit "d" 3, .missingElement "ghost", .cycle ["a", "b"] "a",
        .missingElement "ghost", .missingTemplate "Card", .missingTemplate "Grid",
        .missingTemplate "Stack"] := by
    simp only [outputOf, outputListing, used]
    decide +kernel
  cases built : outputOf ⟨[("Text", "text")]⟩ 3 UITree.tangled default with
  | error cause => simp [built, Except.toOption] at met
  | ok output =>
      have defects := Option.some.inj (by simpa only [built, Except.toOption, Option.map_some] using met)
      have tolerant : build ⟨[("Text", "text")]⟩ 3 false UITree.tangled default = .ok output := by
        simp [build_eq_accept, accept, built]
      refine ⟨injective, output, tolerant, ?_⟩
      rw [build_rename injective, tolerant]
      simp only [Except.map, Output.rename, defects]
      rfl

end Project

end TreeExport
