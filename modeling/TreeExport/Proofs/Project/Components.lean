import TreeExport.Proofs.Markup.Line
import TreeExport.Proofs.Project.Contents
import TreeExport.Proofs.Project.Output
import TreeExport.Proofs.Text.Case
import TreeExport.Proofs.Tree.Reachable
import Mathlib.Data.List.Forall2

/-!
A build agrees with itself on its components. One ascending list names the registered components within the
reach of the root: the component files, the index, the imports of the page and the introduction all follow
that list, and a tag of any other component is reported once.
-/

namespace TreeExport

def UITree.Uses (tree : UITree) (type : String) : Prop :=
  ∃ key element, tree.Reaches tree.root key ∧ tree.get? key = some element ∧ element.type = type

theorem UITree.mem_usedTypes_iff_uses {tree : UITree} {type : String} :
    type ∈ tree.usedTypes ↔ tree.Uses type := by
  rw [mem_usedTypes]
  constructor
  · rintro ⟨key, member, element, found, type_eq⟩
    exact ⟨key, element, (mem_reachableKeys.mp member).1, found, type_eq⟩
  · rintro ⟨key, element, reaches, found, type_eq⟩
    exact ⟨key, mem_reachableKeys.mpr ⟨reaches, element, found⟩, element, found, type_eq⟩

namespace Registry

variable {registry : Registry} {names : List String} {name : String}

theorem partition_eq_filter (registry : Registry) (names : List String) :
    registry.partition names = ((Text.sortedSet names).filter registry.contains,
      (Text.sortedSet names).filter (!registry.contains ·)) := by
  rw [partition, List.partition_eq_filter_filter]
  rfl

theorem mem_partition_fst :
    name ∈ (registry.partition names).1 ↔ registry.contains name ∧ name ∈ names := by
  rw [partition_eq_filter]
  simp [and_comm]

theorem mem_partition_snd :
    name ∈ (registry.partition names).2 ↔ name ∈ names ∧ ¬registry.contains name := by
  rw [partition_eq_filter]
  simp

theorem pairwise_partition (registry : Registry) (names : List String) :
    (registry.partition names).1.Pairwise (· < ·) ∧ (registry.partition names).2.Pairwise (· < ·) := by
  rw [partition_eq_filter]
  exact ⟨(Text.pairwise_sortedSet names).filter _, (Text.pairwise_sortedSet names).filter _⟩

theorem eq_of_contains_singleton {source : String} {other : String}
    (held : contains ⟨[(name, source)]⟩ other) : other = name := by
  by_contra different
  simp [contains, Keyed.has, Keyed.get?_cons, different] at held

end Registry

namespace Project

open Registry

variable {registry : Registry} {limit : Int} {tree : UITree} {options : GeneratorOptions}
variable {name : String} {names : List String}

theorem lineFeed_not_mem_exportLine (unbroken : '\n' ∉ name.toList) :
    '\n' ∉ (exportLine name).toList := by
  have module := Text.lineFeed_not_mem_lower unbroken
  have fixed : '\n' ∉ "export \x7b ".toList ∧ '\n' ∉ " \x7d from \"./".toList ∧
      '\n' ∉ "\";".toList := by decide
  simp only [exportLine, Scaffold.moduleName, String.toList_append, List.mem_append, not_or]
  exact ⟨⟨⟨⟨fixed.1, unbroken⟩, fixed.2.1⟩, module⟩, fixed.2.2⟩

theorem lineFeed_not_mem_importLine (unbroken : ∀ name ∈ names, '\n' ∉ name.toList) :
    '\n' ∉ (importLine names).toList := by
  have fixed : '\n' ∉ "import \x7b ".toList ∧ '\n' ∉ ", ".toList ∧
      '\n' ∉ " \x7d from \"@/components/ui\";".toList := by decide
  have joined := Text.not_mem_intercalate fixed.2.1 (List.forall_mem_map.mpr unbroken)
  simp only [importLine, String.toList_append, String.toList_intercalate, List.mem_append, not_or]
  exact ⟨⟨fixed.1, joined⟩, fixed.2.2⟩

def pageHeader (names : List String) : List String :=
  ["\"use client\";", ""] ++ importLines names

theorem eq_of_mem_pageHeader {line : String} (member : line ∈ pageHeader names) :
    line ∈ ["\"use client\";", ""] ∨ line = importLine names := by
  rcases List.mem_append.mp member with first | imported
  · exact Or.inl first
  · unfold importLines at imported
    split at imported
    · simp at imported
    · rcases List.mem_cons.mp imported with rfl | blank
      · exact Or.inr rfl
      · exact Or.inl (List.mem_cons_of_mem _ blank)

theorem lineFeed_not_mem_pageHeader (unbroken : ∀ name ∈ names, '\n' ∉ name.toList) :
    ∀ line ∈ pageHeader names, '\n' ∉ line.toList := by
  have fixed : ∀ line ∈ ["\"use client\";", ""], '\n' ∉ line.toList := by decide
  intro line member
  rcases eq_of_mem_pageHeader member with first | rfl
  · exact fixed line first
  · exact lineFeed_not_mem_importLine unbroken

def SourceOf (registry : Registry) (name : String) (file : GeneratedFile) : Prop :=
  file.path = componentPath name ∧ registry.get? name = some file.content

def missingReports (diagnostics : List Diagnostic) (component : String) : Nat :=
  diagnostics.countP fun report => report.kind = .missingTemplate ∧ report.key = component

structure Parts where
  scaffold : List GeneratedFile
  sources : List GeneratedFile
  index : String
  page : String
  readme : String

def Parts.files (parts : Parts) : List GeneratedFile :=
  parts.scaffold ++ parts.sources ++ [
    ⟨"components/ui/index.ts", parts.index⟩,
    ⟨"app/page.tsx", parts.page⟩,
    ⟨"README.md", parts.readme⟩]

/-- How the parts of a project with some markup follow one list of components. -/
structure Parts.Lists (registry : Registry) (options : GeneratorOptions) (markup : String)
    (components : List String) (parts : Parts) : Prop where
  scaffold : parts.scaffold.map GeneratedFile.path =
    ["package.json", "next.config.js", "tsconfig.json", "app/globals.css", "app/layout.tsx"]
  sources : List.Forall₂ (SourceOf registry) components parts.sources
  index : Text.split '\n' parts.index.toList =
    components.map (fun name => (exportLine name).toList) ++ [[]]
  located : ∀ name ∈ components, ∃ module,
    exportLine name = "export \x7b " ++ name ++ " \x7d from \"./" ++ module ++ "\";" ∧
      componentPath name = "components/ui/" ++ module ++ ".tsx"
  page : ∃ dataText, dataLiteral (.ofKeyed options.data) = .ok dataText ∧
    Text.split '\n' parts.page.toList = (pageHeader components).map String.toList ++
      Text.split '\n' (dataOpening ++ dataText ++ ";\n" ++ pageShell markup).toList
  readme : ∃ fixed : List String, "## Components" ∉ fixed ∧ (∀ line ∈ fixed, '\n' ∉ line.toList) ∧
    parts.readme = "# " ++ options.projectName ++ ofLines fixed ++ ofLines (componentLines components)

theorem forall₂_sources (held : ∀ name ∈ names, registry.contains name) :
    List.Forall₂ (SourceOf registry) names
      (names.map fun name => ⟨componentPath name, (registry.get? name).getD ""⟩) := by
  rw [List.forall₂_map_right_iff, List.forall₂_same]
  intro name member
  obtain ⟨source, found⟩ := Option.isSome_iff_exists.mp (held name member)
  have found : registry.get? name = some source := found
  exact ⟨rfl, by rw [found]; rfl⟩

theorem missingReports_eq_one {walk : List Defect} {missing : List String} {type : String}
    (others : ∀ defect ∈ walk, defect.kind ≠ .missingTemplate) (distinct : missing.Nodup)
    (listed : type ∈ missing) :
    missingReports ((walk ++ missing.map Defect.missingTemplate).map Defect.diagnostic) type = 1 := by
  have before : missingReports (walk.map Defect.diagnostic) type = 0 := by
    rw [missingReports, List.countP_eq_zero]
    intro report member
    obtain ⟨defect, inside, rfl⟩ := List.mem_map.mp member
    have other : defect.diagnostic.kind ≠ .missingTemplate := others defect inside
    simp [other]
  have behind : missingReports ((missing.map Defect.missingTemplate).map Defect.diagnostic) type =
      missing.count type := by
    rw [missingReports, List.map_map, List.countP_map, List.count_eq_countP]
    apply List.countP_congr
    intro name _
    simp only [Function.comp_apply, Defect.diagnostic, Defect.kind, Defect.key, true_and,
      decide_eq_true_eq, beq_iff_eq]
  calc missingReports ((walk ++ missing.map Defect.missingTemplate).map Defect.diagnostic) type
      = missingReports (walk.map Defect.diagnostic) type +
          missingReports ((missing.map Defect.missingTemplate).map Defect.diagnostic) type := by
        rw [List.map_append, missingReports, List.countP_append]
        rfl
    _ = missing.count type := by rw [before, behind, Nat.zero_add]
    _ = 1 := List.count_eq_one_of_mem distinct listed

theorem exists_parts {output : Output}
    (unbroken : ∀ name, registry.contains name → '\n' ∉ name.toList)
    (built : outputOf registry limit tree options = .ok output) :
    ∃ lines parts, (tree.emit limit tree.root pageColumn).outcome = .ok lines ∧
      output.files = Parts.files parts ∧ parts.scaffold.length = 5 ∧
      parts.Lists registry options (Emission.joinLines lines)
        (registry.partition tree.usedTypes).1 := by
  obtain ⟨lines, dataText, leading, trailing, emitted, encoded, first, last, files, _⟩ :=
    outputOf_eq_ok built
  have held : ∀ name ∈ (registry.partition tree.usedTypes).1, registry.contains name :=
    fun name member => (mem_partition_fst.mp member).1
  generalize (registry.partition tree.usedTypes).1 = components at *
  obtain ⟨fixed, untitled, fixedUnbroken, rendered⟩ :=
    renderFiles_trailing options components dataText (Emission.joinLines lines)
  obtain rfl := Except.ok.inj (last.symm.trans rendered)
  have paths := map_path_of_renderFiles first
  have exported : ∀ line ∈ components.map exportLine, '\n' ∉ line.toList := by
    intro line member
    obtain ⟨name, inside, rfl⟩ := List.mem_map.mp member
    exact lineFeed_not_mem_exportLine (unbroken name (held name inside))
  have header := lineFeed_not_mem_pageHeader fun name member => unbroken name (held name member)
  refine ⟨lines, ⟨leading,
      components.map fun component => ⟨componentPath component, (registry.get? component).getD ""⟩,
      ofLines (components.map exportLine), pageText components dataText (Emission.joinLines lines),
      "# " ++ options.projectName ++ ofLines fixed ++ ofLines (componentLines components)⟩,
    emitted, files, ?_, ⟨paths, forall₂_sources held, ?_, ?_, ⟨dataText, encoded, ?_⟩,
      fixed, untitled, fixedUnbroken, rfl⟩⟩
  · simpa [leadingFiles] using congrArg List.length paths
  · have cut := Scaffold.split_ofLines_append exported []
    rwa [List.append_nil, List.map_map] at cut
  · intro name _
    exact ⟨Scaffold.moduleName name, rfl, rfl⟩
  · rw [← Scaffold.split_ofLines_append header, ← String.toList_append]
    simp only [pageText, pageHeader, String.append_assoc]

/-- A tolerant build follows one ascending list, the registered components within the reach of the root.
What the page tags beside them is reported, each component once and in order, behind the defects of the
walk. -/
theorem build_lists_components {output : Output}
    (unbroken : ∀ name, registry.contains name → '\n' ∉ name.toList)
    (built : build registry limit false tree options = .ok output) :
    ∃ (components : List String) (lines : List Line) (parts : Parts),
      components.Pairwise (· < ·) ∧
      (∀ name, name ∈ components ↔ registry.contains name ∧ tree.Uses name) ∧
      (tree.emit limit tree.root pageColumn).outcome = .ok lines ∧
      output.files = parts.files ∧
      output.files.length = 5 + components.length + 3 ∧
      parts.Lists registry options (Emission.joinLines lines) components ∧
      (∀ line ∈ lines, ∃ key element, tree.Reaches tree.root key ∧ tree.get? key = some element ∧
        line.TagOf element ∧ (element.type ∈ components ∨
          missingReports output.result.diagnostics element.type = 1)) ∧
      ∃ missing : List String,
        missing.Pairwise (· < ·) ∧
        (∀ type, type ∈ missing ↔ tree.Uses type ∧ ¬registry.contains type) ∧
        output.defects =
          (tree.emit limit tree.root pageColumn).defects ++ missing.map .missingTemplate ∧
        ∀ defect ∈ (tree.emit limit tree.root pageColumn).defects,
          defect.kind ≠ .missingTemplate := by
  have tolerated := outputOf_of_build built
  obtain ⟨lines, parts, emitted, files, five, lists⟩ := exists_parts unbroken tolerated
  obtain ⟨_, _, _, _, _, _, _, _, _, defects⟩ := outputOf_eq_ok tolerated
  obtain ⟨ascending, missingAscending⟩ := pairwise_partition registry tree.usedTypes
  have listed : ∀ name, name ∈ (registry.partition tree.usedTypes).1 ↔
      registry.contains name ∧ tree.Uses name := by
    intro name
    rw [mem_partition_fst, UITree.mem_usedTypes_iff_uses]
  have unlisted : ∀ type, type ∈ (registry.partition tree.usedTypes).2 ↔
      tree.Uses type ∧ ¬registry.contains type := by
    intro type
    rw [mem_partition_snd, UITree.mem_usedTypes_iff_uses]
  have others : ∀ defect ∈ (tree.emit limit tree.root pageColumn).defects,
      defect.kind ≠ .missingTemplate := by
    rw [(UITree.emit_eq_ok emitted).1]
    exact fun defect => UITree.kind_ne_missingTemplate_of_mem_met
  refine ⟨_, lines, parts, ascending, listed, emitted, files, ?_, lists, ?_,
    _, missingAscending, unlisted, defects, others⟩
  · have sources := lists.sources.length_eq
    rw [files, Parts.files, List.length_append, List.length_append, five, ← sources]
    rfl
  · intro line member
    obtain ⟨key, element, reaches, found, tagged⟩ := UITree.exists_element_of_mem_lines emitted member
    refine ⟨key, element, reaches, found, tagged, ?_⟩
    -- The type of a written element is used, so it is among the components or is missing once.
    have used : tree.Uses element.type := ⟨key, element, reaches, found, rfl⟩
    by_cases known : registry.contains element.type
    · exact Or.inl ((listed element.type).mpr ⟨known, used⟩)
    · refine Or.inr ?_
      rw [Output.result, defects]
      exact missingReports_eq_one others (missingAscending.imp String.ne_of_lt)
        ((unlisted element.type).mpr ⟨used, known⟩)

/-- Of the four types in the small tree one is registered, and the rest is reported. -/
theorem build_lists_components_tangled :
    (∀ name, contains ⟨[("Text", "text")]⟩ name → '\n' ∉ name.toList) ∧
    ∃ (output : Output) (components : List String) (lines : List Line) (parts : Parts),
      build ⟨[("Text", "text")]⟩ 3 false UITree.tangled default = .ok output ∧
      output.files = parts.files ∧
      parts.Lists ⟨[("Text", "text")]⟩ default (Emission.joinLines lines) components ∧
      "Text" ∈ components ∧ "Stack" ∉ components := by
  have unbroken : ∀ name, contains ⟨[("Text", "text")]⟩ name → '\n' ∉ name.toList := by
    intro name held
    rw [eq_of_contains_singleton held]
    decide
  have used : UITree.tangled.usedTypes = ["Stack", "Card", "Grid", "Text"] := by cbv
  have written : (outputOf ⟨[("Text", "text")]⟩ 3 UITree.tangled default).isOk = true := by
    simp only [outputOf, outputListing, used]
    decide +kernel
  obtain ⟨output, built⟩ := exists_build_of_isOk written
  obtain ⟨components, lines, parts, _, listed, _, files, _, lists, _⟩ :=
    build_lists_components unbroken built
  have shown : UITree.tangled.Uses "Text" := UITree.mem_usedTypes_iff_uses.mp (by simp [used])
  refine ⟨unbroken, output, components, lines, parts, built, files, lists, ?_, ?_⟩
  · exact (listed "Text").mpr ⟨by decide, shown⟩
  · intro member
    exact absurd ((listed "Stack").mp member).1 (by decide)

end Project

end TreeExport
