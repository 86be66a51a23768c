import TreeExport.Proofs.Markup.Nesting

/-!
One walk at two columns. A walk that starts further right goes through the same states with all columns moved,
so it writes the same lines with more blanks in front of them, meets the same defects, and fails for the same
tag.
-/

namespace TreeExport

namespace Line

def shift (offset : Int) : Line → Line
  | .opening column key tag => .opening (column + offset) key tag
  | .closing column component => .closing (column + offset) component
  | .single column key tag => .single (column + offset) key tag

theorem column_shift (offset : Int) (line : Line) : (line.shift offset).column = line.column + offset := by
  cases line <;> rfl

theorem content_shift (offset : Int) (line : Line) : (line.shift offset).content = line.content := by
  cases line <;> rfl

theorem shift_shift {offset back : Int} (opposite : offset + back = 0) (line : Line) :
    (line.shift offset).shift back = line := by
  cases line <;> simp [shift, Int.add_assoc, opposite]

theorem text_shift {line : Line} (within : 0 ≤ line.column) (count : Nat) :
    (line.shift count).text = List.replicate count ' ' ++ line.text := by
  have columns : (line.column + (count : Int)).toNat = count + line.column.toNat := by omega
  rw [text, text, content_shift, column_shift, columns, List.replicate_add, List.append_assoc]

end Line

def Task.shift (offset : Int) : Task → Task
  | .visit key column => .visit key (column + offset)
  | .close component column => .close component (column + offset)

namespace Emission

def shift (offset : Int) (emission : Emission) : Emission :=
  ⟨emission.defects, emission.outcome.map (List.map (Line.shift offset))⟩

end Emission

namespace Walk

def shift (offset : Int) (walk : Walk) : Walk :=
  ⟨walk.tasks.map (Task.shift offset), walk.path, walk.lines.map (Line.shift offset), walk.defects⟩

variable {tree : UITree} {limit : Int}

theorem map_shift_visits (offset column : Int) (keys : List String) :
    (keys.map fun key => Task.visit key (column + indentStep)).map (Task.shift offset) =
      keys.map fun key => Task.visit key (column + offset + indentStep) := by
  rw [List.map_map]
  apply List.map_congr_left
  intro key _
  rw [Function.comp, Task.shift, Int.add_right_comm]

theorem next_shift (offset : Int) (walk : Walk) :
    (walk.shift offset).next tree limit =
      (walk.next tree limit).map (shift offset) (Emission.shift offset) := by
  obtain ⟨tasks, path, lines, defects⟩ := walk
  rcases tasks with _ | ⟨⟨key, column⟩ | ⟨component, column⟩, tasks⟩
  · simp only [next, shift, finish, Emission.shift, List.map_nil, Sum.map_inr, Except.map, List.map_reverse]
  · simp only [next, shift, List.map_cons, Task.shift]
    cases tree.resolve limit path key with
    | error defect => rfl
    | ok element =>
        cases written : element.openTag with
        | error failure => simp only [written, Sum.map_inr, finish, Emission.shift, Except.map]
        | ok tag =>
            by_cases inner : element.hasChildren
            · simp only [written, inner, if_true, Sum.map_inl, shift, List.map_append, List.map_cons,
                map_shift_visits, Task.shift, Line.shift]
            · simp only [written, inner, Bool.false_eq_true, if_false, Sum.map_inl, shift, List.map_cons, Line.shift]
  · rfl

/-- Two walks with the same tasks at columns that lie apart by the same offset stay so until both end. -/
theorem run_shift (offset : Int) (walk : Walk) :
    (walk.shift offset).run tree limit = (walk.run tree limit).shift offset := by
  generalize size : walk.cost tree = cost
  induction cost using Nat.strongRecOn generalizing walk with
  | ind cost ih =>
      have moved : (walk.shift offset).next tree limit = _ := next_shift offset walk
      cases stepped : walk.next tree limit with
      | inl after =>
          rw [stepped, Sum.map_inl] at moved
          rw [run_of_next stepped, run_of_next moved]
          exact ih (after.cost tree) (size ▸ next_cost_lt stepped) after rfl
      | inr emission =>
          rw [stepped, Sum.map_inr] at moved
          rw [run_of_end stepped, run_of_end moved]

end Walk

namespace UITree

variable {tree : UITree} {limit column : Int} {key : String} {lines : List Line}

theorem emit_shift (tree : UITree) (limit : Int) (key : String) (column offset : Int) :
    tree.emit limit key (column + offset) = (tree.emit limit key column).shift offset :=
  Walk.run_shift offset (Walk.start key column)

theorem le_column_of_emit (emitted : (tree.emit limit key column).outcome = .ok lines) :
    ∀ line ∈ lines, column ≤ line.column := by
  rw [emit_eq_rendering] at emitted
  obtain ⟨_, _, nested⟩ := nested_rendering emitted
  exact nested.le_column

theorem map_text_shift (within : 0 ≤ column) (emitted : (tree.emit limit key column).outcome = .ok lines)
    (count : Nat) : (lines.map (Line.shift count)).map Line.text =
      lines.map fun line => List.replicate count ' ' ++ line.text := by
  rw [List.map_map]
  apply List.map_congr_left
  intro line member
  exact Line.text_shift (Int.le_trans within (le_column_of_emit emitted line member)) count

theorem filterMap_writtenKey?_shift (offset : Int) (lines : List Line) :
    (lines.map (Line.shift offset)).filterMap Line.writtenKey? = lines.filterMap Line.writtenKey? := by
  rw [List.filterMap_map]
  apply List.filterMap_congr
  intro line _
  cases line <;> rfl

def Unbroken (tree : UITree) (lines : List Line) : Prop :=
  ∀ key ∈ lines.filterMap Line.writtenKey?, ∀ element, tree.get? key = some element → element.Unbroken

theorem exists_text_of_emit (emitted : (tree.emit limit key column).outcome = .ok lines)
    (unbroken : tree.Unbroken lines) :
    ∃ text, (tree.emit limit key column).text = .ok text ∧ Text.linesOf text.toList = lines.map Line.text := by
  have text : (tree.emit limit key column).text = .ok (Emission.joinLines lines) := by
    rw [Emission.text, emitted]
    rfl
  rw [emit_eq_rendering] at emitted
  obtain ⟨_, _, nested⟩ := nested_rendering emitted
  exact ⟨_, text, nested.linesOf_joinLines unbroken⟩

end UITree

end TreeExport
