import TreeExport.Proofs.Disk.Writing
import TreeExport.Proofs.Project.Paths

/-!
Components in the same place. The file of a component has the lower case of its name, so components whose
names differ in case alone share a path: the project has a file for each of them there, of which a look-up
gives the first and a write keeps the last one. A component never stands in the place of a fixed file.
-/

namespace TreeExport

/-- A search through listed items, among others that it refuses, finds the first item that it accepts. -/
theorem exists_find?_between {α β : Type} {order : α → α → Prop} {items : List α}
    (ordered : items.Pairwise order) (make : α → β) {accepts : β → Bool} {before : List β} (after : List β)
    (refused : ∀ made ∈ before, ¬accepts made) {item : α} (member : item ∈ items)
    (accepted : accepts (make item)) :
    ∃ first ∈ items, accepts (make first) ∧
      (before ++ items.map make ++ after).find? accepts = some (make first) ∧
      ∀ other ∈ items, accepts (make other) → other = first ∨ order first other := by
  obtain ⟨first, found⟩ := Option.isSome_iff_exists.mp
    (List.find?_isSome.mpr ⟨item, member, accepted⟩ : (items.find? (accepts ∘ make)).isSome)
  obtain ⟨isAccepted, upper, lower, rfl, skipped⟩ := List.find?_eq_some_iff_append.mp found
  refine ⟨first, by simp, isAccepted, ?_, ?_⟩
  · rw [List.append_assoc, List.find?_append, List.find?_eq_none.mpr refused, Option.none_or,
      List.find?_append, List.find?_map, found]
    rfl
  · intro other listed otherAccepted
    rcases List.mem_append.mp listed with earlier | later
    · have isSkipped := skipped other earlier
      rw [Function.comp, otherAccepted] at isSkipped
      exact absurd isSkipped (by decide)
    · rcases List.mem_cons.mp later with same | behind
      · exact Or.inl same
      · exact Or.inr (List.rel_of_pairwise_cons (List.pairwise_append.mp ordered).2.1 behind)

namespace Project

variable {registry : Registry} {limit : Int} {tree : UITree} {options : GeneratorOptions}
variable {output : Output} {name : String}

/-! ### Paths of components -/

theorem componentPath_eq_iff {other : String} :
    componentPath name = componentPath other ↔ Scaffold.moduleName name = Scaffold.moduleName other := by
  rw [← String.toList_inj, ← String.toList_inj]
  simp [componentPath]

def componentNames (name : String) : List String := (Path.ofString (componentPath name)).names

theorem root_componentPath (name : String) : (Path.ofString (componentPath name)).root = .none := by
  have opening : componentDirectory.toList = 'c' :: "omponents/ui".toList := by decide
  simp [Path.ofString, componentPath, opening, PathRoot.ofChars]

theorem exists_componentNames (name : String) : ∃ upper stem,
    componentNames name = "components" :: (upper ++ [stem ++ ".tsx"]) := by
  have opening : componentDirectory.toList = "components".toList ++ '/' :: "ui".toList := by decide
  have free : '/' ∉ ".tsx".toList := by decide
  obtain ⟨upper, last, pieces⟩ := Text.exists_split_append_end free (Scaffold.moduleName name).toList
  have cut : Text.split '/' (componentPath name).toList =
      "components".toList :: "ui".toList :: (upper ++ [last ++ ".tsx".toList]) := by
    have path : (componentPath name).toList = "components".toList ++ '/' ::
        ("ui".toList ++ '/' :: ((Scaffold.moduleName name).toList ++ ".tsx".toList)) := by
      have slash : "/".toList = ['/'] := by decide
      simp [componentPath, opening, slash]
    rw [path, Text.split_append_cons, Text.split_append_cons, pieces, Text.split_of_not_mem (by decide),
      Text.split_of_not_mem (by decide)]
    rfl
  have noSlash : '/' ∉ last := by
    have member : last ++ ".tsx".toList ∈
        Text.split '/' ((Scaffold.moduleName name).toList ++ ".tsx".toList) := by
      rw [pieces]
      exact List.mem_append_right _ (List.mem_singleton.mpr rfl)
    exact fun slash => Text.not_mem_of_mem_split member (List.mem_append_left _ slash)
  have counts : IsPathName (String.ofList last ++ ".tsx") := by
    refine ⟨by simp, ?_, by simp [noSlash]⟩
    intro same
    have lengths := congrArg String.length same
    rw [String.length_append] at lengths
    have short : ".tsx".length = 4 ∧ ".".length = 1 := by decide
    omega
  have outer : IsPathName "components" ∧ IsPathName "ui" := by decide
  refine ⟨"ui" :: (upper.map String.ofList).filter (IsPathName ·), String.ofList last, ?_⟩
  simp [componentNames, Path.names_ofString, cut, outer, counts]

def fixedPaths : List String := leadingFiles.map Prod.snd ++ trailingFiles.map Prod.snd

theorem fixedPaths_plain : ∀ path ∈ fixedPaths,
    ((Path.ofString path).root = .none ∧ ".." ∉ (Path.ofString path).names) ∧
    ((Path.ofString path).names.head? = some "components" →
      (Path.ofString path).names.getLast? = some "index.ts") := by
  decide +kernel

theorem componentNames_ne_of_mem_fixedPaths {path : String} (fixed : path ∈ fixedPaths) :
    (Path.ofString path).names ≠ componentNames name := by
  obtain ⟨upper, stem, names⟩ := exists_componentNames name
  intro same
  rw [names] at same
  have last := (fixedPaths_plain path fixed).2 (by rw [same]; rfl)
  rw [same, ← List.cons_append, List.getLast?_concat] at last
  have text := congrArg String.toList (Option.some.inj last)
  rw [String.toList_append] at text
  have suffix : ".tsx".toList <:+ "index.ts".toList := ⟨_, text⟩
  exact absurd suffix (by decide)

/-! ### Look-ups -/

def Includes (registry : Registry) (tree : UITree) (name : String) : Prop :=
  registry.contains name ∧ tree.Uses name

theorem mem_components_iff :
    name ∈ (registry.partition tree.usedTypes).1 ↔ Includes registry tree name := by
  rw [Registry.mem_partition_fst, UITree.mem_usedTypes_iff_uses, Includes]

theorem exists_source (included : Includes registry tree name) :
    ∃ source, registry.get? name = some source := by
  have held := included.1
  rw [Registry.contains, Keyed.has, Option.isSome_iff_exists] at held
  exact held

def sourceFile (registry : Registry) (name : String) : GeneratedFile :=
  ⟨componentPath name, (registry.get? name).getD ""⟩

theorem files_of_output (built : outputOf registry limit tree options = .ok output) :
    ∃ leading trailing : List GeneratedFile,
      output.files = leading ++ (registry.partition tree.usedTypes).1.map (sourceFile registry) ++ trailing ∧
      (∀ file ∈ leading, file.path ∈ fixedPaths) ∧ ∀ file ∈ trailing, file.path ∈ fixedPaths := by
  obtain ⟨_, _, leading, trailing, _, _, first, last, files, _⟩ := outputOf_eq_ok built
  refine ⟨leading, trailing, files, ?_, ?_⟩
  · intro file member
    rw [fixedPaths, ← map_path_of_renderFiles first]
    exact List.mem_append_left _ (List.mem_map_of_mem member)
  · intro file member
    rw [fixedPaths, ← map_path_of_renderFiles last]
    exact List.mem_append_right _ (List.mem_map_of_mem member)

theorem componentPath_ne_of_mem_fixedPaths {path : String} (fixed : path ∈ fixedPaths) :
    path ≠ componentPath name := by
  rintro rfl
  exact componentNames_ne_of_mem_fixedPaths fixed rfl

theorem nodup_paths_iff (built : outputOf registry limit tree options = .ok output) :
    output.result.paths.Nodup ↔ ∀ name other, Includes registry tree name → Includes registry tree other →
      Scaffold.moduleName name = Scaffold.moduleName other → name = other := by
  have ascending := (Registry.pairwise_partition registry tree.usedTypes).1
  have paths : output.result.paths.Perm
      (fixedPaths ++ (registry.partition tree.usedTypes).1.map componentPath) := by
    rw [GenerationResult.paths, Output.result, map_path_of_output built, pathsOf, fixedPaths,
      List.append_assoc, List.append_assoc]
    exact List.perm_append_comm.append_left _
  have apart : ∀ path ∈ fixedPaths, ∀ other ∈ (registry.partition tree.usedTypes).1.map componentPath,
      path ≠ other := by
    intro path fixed other member
    obtain ⟨name, _, rfl⟩ := List.mem_map.mp member
    exact componentPath_ne_of_mem_fixedPaths fixed
  have fixed : fixedPaths.Nodup := by decide
  rw [paths.nodup_iff, List.nodup_append, and_iff_right fixed, and_iff_left apart,
    List.nodup_map_iff_inj_on (ascending.imp String.ne_of_lt)]
  simp only [mem_components_iff, componentPath_eq_iff]
  constructor
  · exact fun each name other here there => each name here other there
  · exact fun each name here other there => each name other here there

theorem get?_component (built : outputOf registry limit tree options = .ok output)
    (included : Includes registry tree name) :
    ∃ first source, Includes registry tree first ∧ Scaffold.moduleName first = Scaffold.moduleName name ∧
      (∀ other, Includes registry tree other → Scaffold.moduleName other = Scaffold.moduleName name →
        first ≤ other) ∧
      registry.get? first = some source ∧
      output.result.get? (componentPath name) = some ⟨componentPath name, source⟩ := by
  obtain ⟨leading, trailing, files, leadingFixed, _⟩ := files_of_output built
  -- A look-up takes the first file, and names ascend among the components.
  have skipped : ∀ file ∈ leading, ¬(file.path == componentPath name) = true := by
    intro file member same
    exact componentPath_ne_of_mem_fixedPaths (leadingFixed file member) (eq_of_beq same)
  have same_iff : ∀ other, ((sourceFile registry other).path == componentPath name) = true ↔
      Scaffold.moduleName other = Scaffold.moduleName name := by
    intro other
    rw [beq_iff_eq, sourceFile, componentPath_eq_iff]
  obtain ⟨first, member, isSame, found, least⟩ := exists_find?_between
    (Registry.pairwise_partition registry tree.usedTypes).1 (sourceFile registry) trailing skipped
    (mem_components_iff.mpr included) ((same_iff name).mpr rfl)
  have firstIncluded := mem_components_iff.mp member
  obtain ⟨source, registered⟩ := exists_source firstIncluded
  refine ⟨first, source, firstIncluded, (same_iff first).mp isSame, ?_, registered, ?_⟩
  · intro other otherIncluded same
    rcases least other (mem_components_iff.mpr otherIncluded) ((same_iff other).mpr same) with rfl | below
    · exact String.le_refl other
    · exact Std.le_of_lt below
  · rw [GenerationResult.get?, Output.result, files, found, sourceFile, registered,
      componentPath_eq_iff.mpr ((same_iff first).mp isSame)]
    rfl

/-! ### Writing -/

section Leads

variable {directory : Path} {disk : Disk} {above : Disk.Place}

/-- Below one directory, names that do not lead back up lead to the same place only if they are the same. -/
theorem leads_component_iff (base : disk.locate directory = .ok above) {other : String}
    (lands : ∃ place, disk.locate (target directory (sourceFile registry other)) = .ok place)
    (inside : ".." ∉ componentNames other) :
    ((disk.locate (target directory (sourceFile registry other))).toOption ==
      some (above ++ componentNames name)) = true ↔ componentNames other = componentNames name := by
  obtain ⟨place, located⟩ := lands
  obtain ⟨upper, same, rfl⟩ := Disk.exists_of_locate_join (root_componentPath other) inside located
  obtain rfl : upper = above := Except.ok.inj (same.symm.trans base)
  rw [leads_iff, located, Except.ok.injEq, List.append_cancel_left_eq]
  rfl

theorem not_leads_fixed (base : disk.locate directory = .ok above) {file : GeneratedFile}
    (fixed : file.path ∈ fixedPaths) :
    ¬((disk.locate (target directory file)).toOption == some (above ++ componentNames name)) = true := by
  intro lead
  obtain ⟨⟨root, free⟩, _⟩ := fixedPaths_plain _ fixed
  obtain ⟨upper, same, places⟩ := Disk.exists_of_locate_join root free (leads_iff.mp lead)
  obtain rfl : above = upper := Except.ok.inj (base.symm.trans same)
  exact componentNames_ne_of_mem_fixedPaths fixed (List.append_cancel_left places).symm

end Leads

theorem read_component (built : outputOf registry limit tree options = .ok output) {directory : Path}
    {disk later : Disk} {paths : List Path}
    (ran : (writeFiles directory output.files).run disk = (.ok paths, later))
    (inside : ∀ name, Includes registry tree name → ".." ∉ componentNames name)
    (included : Includes registry tree name) :
    ∃ last source, Includes registry tree last ∧ componentNames last = componentNames name ∧
      (∀ other, Includes registry tree other → componentNames other = componentNames name → other ≤ last) ∧
      registry.get? last = some source ∧
      later.read (directory.join (Path.ofString (componentPath name))) = .ok source.toUTF8 := by
  have written := written_of_run ran
  obtain ⟨leading, trailing, files, _, trailingFixed⟩ := files_of_output built
  have listed : ∀ other, Includes registry tree other → sourceFile registry other ∈ output.files := by
    intro other otherIncluded
    have member := List.mem_map_of_mem (f := sourceFile registry) (mem_components_iff.mpr otherIncluded)
    rw [files]
    exact List.mem_append_left _ (List.mem_append_right _ member)
  obtain ⟨place, located⟩ := written.lands _ (listed name included)
  obtain ⟨above, base, rfl⟩ :=
    Disk.exists_of_locate_join (root_componentPath name) (inside name included) located
  have refused : ∀ file ∈ trailing.reverse,
      ¬((later.locate (target directory file)).toOption == some (above ++ componentNames name)) = true := by
    intro file member
    exact not_leads_fixed base (trailingFixed file (List.mem_reverse.mp member))
  have leads : ∀ other, Includes registry tree other →
      (((later.locate (target directory (sourceFile registry other))).toOption ==
        some (above ++ componentNames name)) = true ↔ componentNames other = componentNames name) := by
    intro other otherIncluded
    exact leads_component_iff base (written.lands _ (listed other otherIncluded)) (inside other otherIncluded)
  -- The last write at a place stays, so the files are searched from behind, where the names descend.
  have descending := List.pairwise_reverse.mpr (Registry.pairwise_partition registry tree.usedTypes).1
  obtain ⟨last, member, isSame, found, greatest⟩ := exists_find?_between descending (sourceFile registry)
    leading.reverse refused (List.mem_reverse.mpr (mem_components_iff.mpr included))
    ((leads name included).mpr rfl)
  have lastIncluded := mem_components_iff.mp (List.mem_reverse.mp member)
  obtain ⟨source, registered⟩ := exists_source lastIncluded
  refine ⟨last, source, lastIncluded, (leads last lastIncluded).mp isSame, ?_, registered, ?_⟩
  · intro other otherIncluded same
    have listedToo := List.mem_reverse.mpr (mem_components_iff.mpr otherIncluded)
    rcases greatest other listedToo ((leads other otherIncluded).mpr same) with rfl | below
    · exact String.le_refl other
    · exact Std.le_of_lt below
  · have kept : lastAt? later directory output.files (above ++ componentNames name) =
        some (sourceFile registry last) := by
      rw [lastAt?, files, List.reverse_append, List.reverse_append, ← List.append_assoc, ← List.map_reverse]
      exact found
    apply Disk.read_of_fileAt? located
    have holds := written.holds (above ++ componentNames name)
    rw [kept, sourceFile, registered] at holds
    exact holds

/-- Two files of a build share a path exactly if two components have one module name. A look-up gives the
source of the first of the components with a module name; a write, unless it fails or a name leads back up,
leaves the source of the last of those whose paths lead through the same names. -/
theorem build_collides {strict : Bool} (built : build registry limit strict tree options = .ok output) :
    (output.result.paths.Nodup ↔ ∀ name other, Includes registry tree name → Includes registry tree other →
      Scaffold.moduleName name = Scaffold.moduleName other → name = other) ∧
    (∀ name, Includes registry tree name →
      ∃ first source, Includes registry tree first ∧ Scaffold.moduleName first = Scaffold.moduleName name ∧
        (∀ other, Includes registry tree other → Scaffold.moduleName other = Scaffold.moduleName name →
          first ≤ other) ∧
        registry.get? first = some source ∧
        output.result.get? (componentPath name) = some ⟨componentPath name, source⟩) ∧
    ∀ directory disk later paths, (writeFiles directory output.files).run disk = (.ok paths, later) →
      (∀ name, Includes registry tree name → ".." ∉ componentNames name) →
      ∀ name, Includes registry tree name →
        ∃ last source, Includes registry tree last ∧ componentNames last = componentNames name ∧
          (∀ other, Includes registry tree other → componentNames other = componentNames name →
            other ≤ last) ∧
          registry.get? last = some source ∧
          later.read (directory.join (Path.ofString (componentPath name))) = .ok source.toUTF8 := by
  have tolerated := outputOf_of_build built
  refine ⟨nodup_paths_iff tolerated, fun name => get?_component tolerated, ?_⟩
  intro directory disk later paths ran inside name
  exact read_component tolerated ran inside

theorem exists_run_of_isOk {strict : Bool} {directory : Path} {disk : Disk}
    (succeeded : (match build registry limit strict tree options with
      | .ok output => ((writeFiles directory output.files).run disk).1.isOk
      | .error _ => false) = true) :
    ∃ output paths later, build registry limit strict tree options = .ok output ∧
      (writeFiles directory output.files).run disk = (.ok paths, later) := by
  cases built : build registry limit strict tree options with
  | error cause => simp [built] at succeeded
  | ok output =>
      rw [built] at succeeded
      cases ran : (writeFiles directory output.files).run disk with
      | mk outcome later =>
          cases outcome with
          | error failure => simp [ran, Except.isOk, Except.toBool] at succeeded
          | ok paths => exact ⟨output, paths, later, rfl, ran⟩

theorem eq_or_eq_of_includes {first second source other : String}
    (included : Includes ⟨[(first, source), (second, other)]⟩ tree name) : name = first ∨ name = second := by
  by_contra different
  obtain ⟨notFirst, notSecond⟩ := not_or.mp different
  have held := included.1
  simp [Registry.contains, Keyed.has, Keyed.get?_cons, notFirst, notSecond] at held

/-- Components with different module names have files of their own. -/
theorem build_collides_tangled :
    ∃ output paths later,
      build ⟨[("Card", "a"), ("Text", "b")]⟩ 3 false UITree.tangled default = .ok output ∧
      (writeFiles (.ofString "out") output.files).run Disk.empty = (.ok paths, later) ∧
      output.result.paths.Nodup ∧
      output.result.get? (componentPath "Card") = some ⟨componentPath "Card", "a"⟩ ∧
      later.read ((Path.ofString "out").join (Path.ofString (componentPath "Card"))) = .ok "a".toUTF8 := by
  have used : UITree.tangled.usedTypes = ["Stack", "Card", "Grid", "Text"] := by cbv
  obtain ⟨output, paths, later, built, ran⟩ : ∃ output paths later,
      build ⟨[("Card", "a"), ("Text", "b")]⟩ 3 false UITree.tangled default = .ok output ∧
        (writeFiles (.ofString "out") output.files).run Disk.empty = (.ok paths, later) := by
    apply exists_run_of_isOk
    simp only [build_eq_accept, accept, outputOf, outputListing, used]
    decide +kernel
  have card : Includes ⟨[("Card", "a"), ("Text", "b")]⟩ UITree.tangled "Card" :=
    ⟨by decide, UITree.mem_usedTypes_iff_uses.mp (by simp [used])⟩
  have modules : Scaffold.moduleName "Card" ≠ Scaffold.moduleName "Text" := by decide +kernel
  have places : componentNames "Card" ≠ componentNames "Text" := by decide +kernel
  have inside : ∀ name, Includes ⟨[("Card", "a"), ("Text", "b")]⟩ UITree.tangled name →
      ".." ∉ componentNames name := by
    intro name included
    rcases eq_or_eq_of_includes included with rfl | rfl <;> decide +kernel
  obtain ⟨distinct, found, kept⟩ := build_collides built
  refine ⟨output, paths, later, built, ran, distinct.mpr ?_, ?_, ?_⟩
  · intro name other here there same
    rcases eq_or_eq_of_includes here with rfl | rfl <;> rcases eq_or_eq_of_includes there with rfl | rfl
    · rfl
    · exact absurd same modules
    · exact absurd same.symm modules
    · rfl
  · obtain ⟨first, source, included, same, _, registered, got⟩ := found "Card" card
    rcases eq_or_eq_of_includes included with rfl | rfl
    · obtain rfl : "a" = source := Option.some.inj registered
      exact got
    · exact absurd same.symm modules
  · obtain ⟨last, source, included, same, _, registered, read⟩ := kept _ _ _ _ ran inside "Card" card
    rcases eq_or_eq_of_includes included with rfl | rfl
    · obtain rfl : "a" = source := Option.some.inj registered
      exact read
    · exact absurd same.symm places

def namesakes : UITree where
  root := "a"
  elements := [("a", ⟨"a", "Card", [], some ["b"]⟩), ("b", ⟨"b", "card", [], none⟩)]

/-- Both components have a file at the same path. A look-up of the second one gives the source of the first,
and on the disk the first one is lost. -/
theorem build_loses_namesake :
    ∃ output paths later,
      build ⟨[("Card", "a"), ("card", "b")]⟩ 3 false namesakes default = .ok output ∧
      (writeFiles (.ofString "out") output.files).run Disk.empty = (.ok paths, later) ∧
      Includes ⟨[("Card", "a"), ("card", "b")]⟩ namesakes "Card" ∧
      Includes ⟨[("Card", "a"), ("card", "b")]⟩ namesakes "card" ∧
      ¬output.result.paths.Nodup ∧
      output.result.get? (componentPath "card") = some ⟨componentPath "card", "a"⟩ ∧
      later.read ((Path.ofString "out").join (Path.ofString (componentPath "Card"))) = .ok "b".toUTF8 := by
  have used : namesakes.usedTypes = ["Card", "card"] := by cbv
  obtain ⟨output, paths, later, built, ran⟩ : ∃ output paths later,
      build ⟨[("Card", "a"), ("card", "b")]⟩ 3 false namesakes default = .ok output ∧
        (writeFiles (.ofString "out") output.files).run Disk.empty = (.ok paths, later) := by
    apply exists_run_of_isOk
    simp only [build_eq_accept, accept, outputOf, outputListing, used]
    decide +kernel
  have upper : Includes ⟨[("Card", "a"), ("card", "b")]⟩ namesakes "Card" :=
    ⟨by decide, UITree.mem_usedTypes_iff_uses.mp (by simp [used])⟩
  have lower : Includes ⟨[("Card", "a"), ("card", "b")]⟩ namesakes "card" :=
    ⟨by decide, UITree.mem_usedTypes_iff_uses.mp (by simp [used])⟩
  have modules : Scaffold.moduleName "Card" = Scaffold.moduleName "card" := by decide +kernel
  have places : componentNames "Card" = componentNames "card" := by decide +kernel
  have inside : ∀ name, Includes ⟨[("Card", "a"), ("card", "b")]⟩ namesakes name →
      ".." ∉ componentNames name := by
    intro name included
    rcases eq_or_eq_of_includes included with rfl | rfl <;> decide +kernel
  have tolerated := outputOf_of_build built
  refine ⟨output, paths, later, built, ran, upper, lower, ?_, ?_, ?_⟩
  · intro distinct
    have same := (nodup_paths_iff tolerated).mp distinct _ _ upper lower modules
    exact absurd same (by decide)
  · obtain ⟨first, source, included, _, least, registered, got⟩ := get?_component tolerated lower
    rcases eq_or_eq_of_includes included with rfl | rfl
    · obtain rfl : "a" = source := Option.some.inj registered
      exact got
    · exact absurd (least "Card" upper modules) (by decide)
  · obtain ⟨last, source, included, _, greatest, registered, read⟩ :=
      read_component tolerated ran inside upper
    rcases eq_or_eq_of_includes included with rfl | rfl
    · exact absurd (greatest "card" lower places.symm) (by decide)
    · obtain rfl : "b" = source := Option.some.inj registered
      exact read

end Project

end TreeExport
