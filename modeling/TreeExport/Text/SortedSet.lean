/-!
Sets of texts as lists that ascend strictly by code point.
-/

namespace TreeExport.Text

def insertSorted (name : String) : List String → List String
  | [] => [name]
  | first :: rest =>
    if name = first then first :: rest
    else if name < first then name :: first :: rest
    else first :: insertSorted name rest

def sortedSet (names : List String) : List String :=
  names.foldr insertSorted []

@[simp] theorem mem_insertSorted {name other : String} {names : List String} :
    other ∈ insertSorted name names ↔ other = name ∨ other ∈ names := by
  induction names with
  | nil => simp [insertSorted]
  | cons first rest ih =>
      unfold insertSorted
      split
      · rename_i same
        subst same
        simp
      · split
        · simp
        · simp only [List.mem_cons, ih]
          exact or_left_comm

@[simp] theorem mem_sortedSet {name : String} {names : List String} :
    name ∈ sortedSet names ↔ name ∈ names := by
  induction names with
  | nil => simp [sortedSet]
  | cons first rest ih =>
      have unfolded : sortedSet (first :: rest) = insertSorted first (sortedSet rest) := rfl
      rw [unfolded, mem_insertSorted, ih, List.mem_cons]

theorem pairwise_insertSorted {name : String} {names : List String}
    (ascending : names.Pairwise (· < ·)) : (insertSorted name names).Pairwise (· < ·) := by
  induction names with
  | nil => simp [insertSorted]
  | cons first rest ih =>
      obtain ⟨above, others⟩ := List.pairwise_cons.mp ascending
      unfold insertSorted
      split
      · exact ascending
      · rename_i different
        split
        · rename_i below
          refine List.pairwise_cons.mpr ⟨?_, ascending⟩
          intro other member
          rcases List.mem_cons.mp member with rfl | member
          · exact below
          · exact String.lt_trans below (above other member)
        · rename_i notBelow
          refine List.pairwise_cons.mpr ⟨?_, ih others⟩
          intro other member
          rcases mem_insertSorted.mp member with rfl | member
          · have le : first ≤ other := notBelow
            exact Std.lt_of_le_of_ne le (Ne.symm different)
          · exact above other member

theorem pairwise_sortedSet (names : List String) : (sortedSet names).Pairwise (· < ·) := by
  induction names with
  | nil => exact .nil
  | cons first rest ih => exact pairwise_insertSorted ih

end TreeExport.Text
