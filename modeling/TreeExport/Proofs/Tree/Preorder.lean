import TreeExport.Proofs.Tree.Reachable
import Mathlib.Data.List.Nodup

/-!
The order of the reachable keys. The walk over the reachable part puts all children of an element on its
stack at once, so a key may wait there in several places and be reached through another one in the meantime.
The order is that of the recursion all the same, which goes through the subtree of a child before it looks at
the next.
-/

namespace TreeExport

namespace UITree

variable {tree : UITree} {stack visited : List String}

theorem length_keysOutside_le {few many : List String} (within : few ⊆ many) :
    (tree.keysOutside many).length ≤ (tree.keysOutside few).length := by
  apply List.Sublist.length_le
  apply List.monotone_filter_right
  intro key
  simp only [decide_eq_true_eq]
  exact fun outside member => outside (within member)

/-- The keys that a depth-first recursion visits from some keys on, taken from left to right, behind those
that it visited before. A key that is missing or was visited before is passed over. -/
def preorderFrom (tree : UITree) : (keys visited : List String) → {later // visited ⊆ later}
  | [], visited => ⟨visited, List.Subset.refl visited⟩
  | key :: keys, visited =>
    if _ : key ∈ visited then preorderFrom tree keys visited
    else
      match _ : tree.get? key with
      | none => preorderFrom tree keys visited
      | some element =>
        let ⟨below, kept⟩ := preorderFrom tree element.childKeys (visited ++ [key])
        let ⟨behind, more⟩ := preorderFrom tree keys below
        ⟨behind, fun _ member => more (kept (List.mem_append_left [key] member))⟩
  termination_by keys visited => ((tree.keysOutside visited).length, keys.length)
  decreasing_by
    · exact Prod.Lex.right _ (by simp)
    · exact Prod.Lex.right _ (by simp)
    · exact Prod.Lex.left _ _ (keysOutside_append_singleton_lt ‹_› ‹_›)
    · have fewer := keysOutside_append_singleton_lt ‹tree.get? key = some element› ‹key ∉ visited›
      exact Prod.Lex.left _ _ (Nat.lt_of_le_of_lt (length_keysOutside_le kept) fewer)

def preorder (tree : UITree) : List String :=
  (tree.preorderFrom [tree.root] []).1

/-- The walk with a stack treats the keys on top of it as the recursion does, whatever waits below them. -/
theorem reachFrom_append (tree : UITree) (keys stack visited : List String) :
    tree.reachFrom (keys ++ stack) visited.reverse =
      tree.reachFrom stack (tree.preorderFrom keys visited).1.reverse := by
  fun_induction preorderFrom tree keys visited generalizing stack with
  | case1 visited => rfl
  | case2 key keys visited member ih =>
      rw [List.cons_append, reachFrom_of_mem (List.mem_reverse.mpr member), ih]
  | case3 key keys visited fresh missing ih =>
      rw [List.cons_append, reachFrom_of_none missing, ih]
  | case4 key keys visited fresh element found below kept first behind more second ihBelow ihBehind =>
      have unreached : key ∉ visited.reverse := by simpa using fresh
      have marked : key :: visited.reverse = (visited ++ [key]).reverse := by simp
      calc tree.reachFrom (key :: keys ++ stack) visited.reverse
          = tree.reachFrom (element.childKeys ++ (keys ++ stack)) (visited ++ [key]).reverse := by
            rw [List.cons_append, reachFrom_of_some found unreached, marked]
        _ = tree.reachFrom (keys ++ stack) below.reverse := by rw [ihBelow, first]
        _ = tree.reachFrom stack behind.reverse := by rw [ihBehind, second]

theorem reachableKeys_eq_preorder (tree : UITree) : tree.reachableKeys = tree.preorder := by
  have whole := reachFrom_append tree [tree.root] [] []
  rw [reachFrom_nil] at whole
  rw [reachableKeys, preorder, List.reverse_eq_iff]
  exact whole

theorem nodup_reachFrom (distinct : visited.Nodup) : (tree.reachFrom stack visited).Nodup := by
  fun_induction reachFrom tree stack visited with
  | case1 visited => exact distinct
  | case2 key stack visited member ih => exact ih distinct
  | case3 key stack visited fresh missing ih => exact ih distinct
  | case4 key stack visited fresh element found ih =>
      exact ih (List.nodup_cons.mpr ⟨fresh, distinct⟩)

theorem nodup_addNew {items : List String} {item : String} (distinct : items.Nodup) :
    (addNew items item).Nodup := by
  unfold addNew
  split
  · exact distinct
  · rename_i fresh
    exact nodup_append_singleton.mpr ⟨distinct, fresh⟩

theorem nodup_typesFrom {types : List String} (distinct : types.Nodup) :
    (tree.typesFrom stack visited types).Nodup := by
  fun_induction typesFrom tree stack visited types with
  | case1 visited types => exact distinct
  | case2 key stack visited types member ih => exact ih distinct
  | case3 key stack visited types fresh missing ih => exact ih distinct
  | case4 key stack visited types fresh element found ih => exact ih (nodup_addNew distinct)

/-- The reachable keys are those of the elements that links lead to from the root, each once and in the order
of the depth-first recursion; the used types are exactly the types of these elements, each once. -/
theorem reachableKeys_depthFirst (tree : UITree) :
    tree.reachableKeys = tree.preorder ∧ tree.reachableKeys.Nodup ∧
    (∀ key, key ∈ tree.reachableKeys ↔ tree.Reaches tree.root key ∧ tree.Holds key) ∧
    tree.usedTypes.Nodup ∧
    ∀ type, type ∈ tree.usedTypes ↔
      ∃ key ∈ tree.reachableKeys, ∃ element, tree.get? key = some element ∧ element.type = type := by
  have distinct : tree.reachableKeys.Nodup := by
    rw [reachableKeys, List.nodup_reverse]
    exact nodup_reachFrom List.nodup_nil
  exact ⟨reachableKeys_eq_preorder tree, distinct, fun _ => mem_reachableKeys,
    nodup_typesFrom List.nodup_nil, fun _ => mem_usedTypes⟩

/-- A shared element waits on the stack once more when it is reached, and is listed below its first parent. -/
example : tangled.reachableKeys = ["a", "b", "c", "d"] := by cbv

end UITree

end TreeExport
