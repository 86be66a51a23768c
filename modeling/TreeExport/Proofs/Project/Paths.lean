import TreeExport.Proofs.Path
import TreeExport.Proofs.Project.Components
import TreeExport.Registry.Packaged
import Mathlib.Data.List.Perm.Subperm

/-!
Where the files of a project stand. With the components that come with the library, all files stand below
the project's directory, and no two of them in the same place.
-/

namespace TreeExport

namespace Project

variable {registry : Registry} {limit : Int} {tree : UITree} {options : GeneratorOptions}
variable {output : Output}

def pathsOf (components : List String) : List String :=
  leadingFiles.map Prod.snd ++ components.map componentPath ++ trailingFiles.map Prod.snd

def namesOf (file : GeneratedFile) : List String := (Path.ofString file.path).names

theorem map_path_of_output (built : outputOf registry limit tree options = .ok output) :
    output.files.map GeneratedFile.path = pathsOf (registry.partition tree.usedTypes).1 := by
  obtain ⟨lines, dataText, leading, trailing, _, _, first, last, files, _⟩ := outputOf_eq_ok built
  rw [files, List.map_append, List.map_append, map_path_of_renderFiles first,
    map_path_of_renderFiles last, List.map_map, pathsOf]
  rfl

theorem subperm_components (registry : Registry) (names : List String) :
    (registry.partition names).1.Subperm registry.templates.keys := by
  apply List.subperm_of_subset
  · exact (Registry.pairwise_partition registry names).1.imp fun below => String.ne_of_lt below
  · intro name member
    have held := (Registry.mem_partition_fst.mp member).1
    rw [Registry.contains, Keyed.has, Keyed.get?, Option.isSome_iff_exists] at held
    obtain ⟨source, found⟩ := held
    obtain ⟨before, after, split, _⟩ := List.lookup_eq_some_iff.mp found
    simp [Keyed.keys, split]

theorem subperm_map {α β : Type} {few many : List α} (subperm : few.Subperm many) (f : α → β) :
    (few.map f).Subperm (many.map f) := by
  obtain ⟨inside, same, sublist⟩ := subperm
  exact ⟨inside.map f, same.map f, sublist.map f⟩

theorem subperm_paths {names components : List String} (subperm : names.Subperm components) :
    (pathsOf names).Subperm (pathsOf components) := by
  have mapped : (names.map componentPath).Subperm (components.map componentPath) :=
    subperm_map subperm _
  exact (List.subperm_append_right _).mpr ((List.subperm_append_left _).mpr mapped)

def packagedPaths : List String := pathsOf Registry.packaged.templates.keys

def packagedNames : List (List String) := [
  ["package.json"], ["next.config.js"], ["tsconfig.json"], ["app", "globals.css"],
  ["app", "layout.tsx"], ["components", "ui", "alert.tsx"], ["components", "ui", "badge.tsx"],
  ["components", "ui", "button.tsx"], ["components", "ui", "card.tsx"],
  ["components", "ui", "chart.tsx"], ["components", "ui", "cryptocard.tsx"],
  ["components", "ui", "datepicker.tsx"], ["components", "ui", "divider.tsx"],
  ["components", "ui", "empty.tsx"], ["components", "ui", "grid.tsx"],
  ["components", "ui", "heading.tsx"], ["components", "ui", "list.tsx"],
  ["components", "ui", "metric.tsx"], ["components", "ui", "select.tsx"],
  ["components", "ui", "stack.tsx"], ["components", "ui", "table.tsx"],
  ["components", "ui", "text.tsx"], ["components", "ui", "trendingrepos.tsx"],
  ["components", "ui", "weatherwidget.tsx"], ["components", "ui", "index.ts"],
  ["app", "page.tsx"], ["README.md"]]

theorem packagedPaths_eq : packagedPaths = packagedNames.map ("/".intercalate ·) := by
  decide +kernel

theorem packagedNames_plain : packagedNames.Nodup ∧ ∀ names ∈ packagedNames, names ≠ [] ∧
    ∀ name ∈ names, IsPathName name ∧ name ≠ ".." := by
  decide +kernel

theorem ofString_packagedPaths {names : List String} (member : names ∈ packagedNames) :
    (Path.ofString ("/".intercalate names)).root = .none ∧
      (Path.ofString ("/".intercalate names)).names = names := by
  obtain ⟨filled, each⟩ := packagedNames_plain.2 names member
  exact Path.ofString_intercalate filled fun name inside => (each name inside).1

theorem nodup_packagedPaths : (packagedPaths.map fun path => (Path.ofString path).names).Nodup := by
  have names : packagedPaths.map (fun path => (Path.ofString path).names) = packagedNames := by
    rw [packagedPaths_eq, List.map_map]
    exact (List.map_congr_left fun _ member => (ofString_packagedPaths member).2).trans (List.map_id _)
  rw [names]
  exact packagedNames_plain.1

theorem inside_packagedPaths : ∀ path ∈ packagedPaths,
    (Path.ofString path).root = .none ∧ ".." ∉ (Path.ofString path).names := by
  intro path member
  rw [packagedPaths_eq] at member
  obtain ⟨names, listed, rfl⟩ := List.mem_map.mp member
  obtain ⟨root, same⟩ := ofString_packagedPaths listed
  rw [same]
  exact ⟨root, fun inside => ((packagedNames_plain.2 names listed).2 _ inside).2 rfl⟩

section Packaged

variable (built : outputOf Registry.packaged limit tree options = .ok output)

include built

theorem subperm_packagedPaths : (output.files.map GeneratedFile.path).Subperm packagedPaths := by
  rw [map_path_of_output built]
  exact subperm_paths (subperm_components _ _)

theorem nodup_names : (output.files.map namesOf).Nodup := by
  obtain ⟨paths, same, inside⟩ := subperm_map (subperm_packagedPaths built) fun path =>
    (Path.ofString path).names
  rw [List.map_map] at same
  exact same.nodup_iff.mp (inside.nodup nodup_packagedPaths)

theorem inside_project {file : GeneratedFile} (member : file ∈ output.files) :
    (Path.ofString file.path).root = .none ∧ ".." ∉ namesOf file :=
  inside_packagedPaths _ ((subperm_packagedPaths built).subset (List.mem_map_of_mem member))

end Packaged

end Project

end TreeExport
