import TreeExport.Proofs.Markup.Shift
import TreeExport.Proofs.Project.Contents

/-!
The margin of the markup. The column at which a walk starts is put in front of every line and changes nothing
else, so the page shows the same lines whatever its margin is.
-/

namespace TreeExport

namespace Project

variable {registry : Registry} {limit : Int} {tree : UITree} {options : GeneratorOptions} {output : Output}

theorem exists_page_mem_files (built : outputOf registry limit tree options = .ok output) :
    ∃ names dataText lines, (tree.emit limit tree.root pageColumn).outcome = .ok lines ∧
      ⟨"app/page.tsx", pageText names dataText (Emission.joinLines lines)⟩ ∈ output.files := by
  obtain ⟨lines, dataText, leading, trailing, emitted, _, _, last, files, _⟩ := outputOf_eq_ok built
  obtain ⟨_, _, _, rendered⟩ := renderFiles_trailing options (registry.partition tree.usedTypes).1
    dataText (Emission.joinLines lines)
  obtain rfl := Except.ok.inj (rendered.symm.trans last)
  refine ⟨(registry.partition tree.usedTypes).1, dataText, lines, emitted, ?_⟩
  rw [files]
  apply List.mem_append_right
  exact List.mem_cons_of_mem _ List.mem_cons_self

end Project

namespace UITree

variable {tree : UITree} {limit : Int}

/-- The lines of a page are those of a walk at any other column, moved to the column of the page. -/
theorem exists_page_shift {registry : Registry} {options : GeneratorOptions} {output : Project.Output}
    (built : Project.outputOf registry limit tree options = .ok output) (column : Int) :
    ∃ names dataText lines, (tree.emit limit tree.root column).outcome = .ok lines ∧
      ⟨"app/page.tsx", Project.pageText names dataText
        (Emission.joinLines (lines.map (Line.shift (Project.pageColumn - column))))⟩ ∈ output.files := by
  obtain ⟨names, dataText, shown, emitted, member⟩ := Project.exists_page_mem_files built
  have moved := emit_shift tree limit tree.root Project.pageColumn (column - Project.pageColumn)
  have here : Project.pageColumn + (column - Project.pageColumn) = column := by omega
  rw [here] at moved
  have back : (shown.map (Line.shift (column - Project.pageColumn))).map
      (Line.shift (Project.pageColumn - column)) = shown := by
    rw [List.map_map]
    refine (List.map_congr_left ?_).trans (List.map_id shown)
    intro line _
    exact Line.shift_shift (by omega) line
  refine ⟨names, dataText, shown.map (Line.shift (column - Project.pageColumn)), ?_, ?_⟩
  · rw [moved, Emission.shift, emitted]
    rfl
  · rw [back]
    exact member

/-- A walk that starts some columns further right writes the same lines with as many blanks in front of each
of them, meets the same defects, or fails for the same reason. If no name that is written holds a line feed,
these are the lines of the two texts. A page shows the lines of the walk at any column, moved to its own. -/
theorem emit_indents (tree : UITree) (limit : Int) (key : String) {column : Int} (within : 0 ≤ column)
    (count : Nat) :
    (tree.emit limit key (column + count)).defects = (tree.emit limit key column).defects ∧
    (tree.emit limit key (column + count)).outcome.map (List.map Line.text) =
      (tree.emit limit key column).outcome.map
        (List.map fun line => List.replicate count ' ' ++ line.text) ∧
    (∀ lines, (tree.emit limit key column).outcome = .ok lines → tree.Unbroken lines →
      ∃ text moved, (tree.emit limit key column).text = .ok text ∧
        (tree.emit limit key (column + count)).text = .ok moved ∧
        Text.linesOf moved.toList = (Text.linesOf text.toList).map (List.replicate count ' ' ++ ·)) ∧
    ∀ registry strict options output, Project.build registry limit strict tree options = .ok output →
      ∃ names dataText lines, (tree.emit limit tree.root column).outcome = .ok lines ∧
        ⟨"app/page.tsx", Project.pageText names dataText
          (Emission.joinLines (lines.map (Line.shift (Project.pageColumn - column))))⟩ ∈ output.files := by
  have moved := emit_shift tree limit key column count
  refine ⟨?_, ?_, ?_, ?_⟩
  · rw [moved, Emission.shift]
  · rw [moved, Emission.shift]
    cases emitted : (tree.emit limit key column).outcome with
    | error failure => rfl
    | ok lines => exact congrArg Except.ok (map_text_shift within emitted count)
  · -- Moving a line keeps its key, so the moved lines are free of line feeds as well.
    intro lines emitted unbroken
    have shifted : (tree.emit limit key (column + count)).outcome = .ok (lines.map (Line.shift count)) := by
      rw [moved, Emission.shift, emitted]
      rfl
    have unbrokenToo : tree.Unbroken (lines.map (Line.shift count)) := by
      rw [Unbroken, filterMap_writtenKey?_shift]
      exact unbroken
    obtain ⟨text, written, splits⟩ := exists_text_of_emit emitted unbroken
    obtain ⟨further, writtenToo, splitsToo⟩ := exists_text_of_emit shifted unbrokenToo
    refine ⟨text, further, written, writtenToo, ?_⟩
    rw [splitsToo, splits, map_text_shift within emitted, List.map_map]
    rfl
  · intro registry strict options output built
    exact exists_page_shift (Project.outputOf_of_build built) column

/-- All lines move by two columns, and the prop with a line feed stays on one of them. -/
theorem emit_indents_layered : (0 : Int) ≤ 4 ∧ ∃ text moved,
    (layered.emit 3 "a" 4).outcome = .ok layeredLines ∧ layered.Unbroken layeredLines ∧
      (layered.emit 3 "a" 4).text = .ok text ∧ (layered.emit 3 "a" (4 + (2 : Nat))).text = .ok moved ∧
      Text.linesOf moved.toList = (Text.linesOf text.toList).map (List.replicate 2 ' ' ++ ·) ∧
      (layered.emit 3 "a" (4 + (2 : Nat))).defects = [.missingElement "ghost"] := by
  have met : (layered.emit 3 "a" 4).defects = [.missingElement "ghost"] := by decide +kernel
  obtain ⟨same, _, texts, _⟩ := emit_indents layered 3 "a" (by decide : (0 : Int) ≤ 4) 2
  obtain ⟨text, moved, written, shifted, splits⟩ := texts _ outcome_layered unbroken_layered
  exact ⟨by decide, text, moved, outcome_layered, unbroken_layered, written, shifted, splits, same.trans met⟩

end UITree

end TreeExport
