import TreeExport.Keyed
import TreeExport.Value.Basic

/-!
User interface trees. A tree is flat: a map from keys to elements and the key of the root. Elements
name their children by key, so children may be missing, shared, or lead back to an ancestor.
-/

namespace TreeExport

structure Element where
  key : String
  type : String
  props : Keyed Value
  children : Option (List String)
  deriving Inhabited

def Element.childKeys (element : Element) : List String :=
  element.children.getD []

def Element.hasChildren (element : Element) : Bool :=
  !element.childKeys.isEmpty

structure UITree where
  root : String
  elements : Keyed Element
  deriving Inhabited

namespace UITree

def get? (tree : UITree) (key : String) : Option Element :=
  tree.elements.get? key

def keysOutside (tree : UITree) (used : List String) : List String :=
  tree.elements.keys.filter fun key => key ∉ used

theorem mem_keys_of_get? {tree : UITree} {key : String} {element : Element}
    (found : tree.get? key = some element) : key ∈ tree.elements.keys := by
  obtain ⟨before, after, split, _⟩ := List.lookup_eq_some_iff.mp found
  simp [Keyed.keys, split]

theorem keysOutside_cons (tree : UITree) (key : String) (used : List String) :
    tree.keysOutside (key :: used) = (tree.keysOutside used).filter (· ≠ key) := by
  simp [keysOutside, List.filter_filter]

theorem keysOutside_cons_lt {tree : UITree} {key : String} {used : List String}
    {element : Element} (found : tree.get? key = some element) (fresh : key ∉ used) :
    (tree.keysOutside (key :: used)).length < (tree.keysOutside used).length := by
  rw [keysOutside_cons, List.length_filter_lt_length_iff_exists]
  exact ⟨key, by simp [keysOutside, mem_keys_of_get? found, fresh], by simp⟩

theorem keysOutside_append_singleton_lt {tree : UITree} {key : String} {used : List String}
    {element : Element} (found : tree.get? key = some element) (fresh : key ∉ used) :
    (tree.keysOutside (used ++ [key])).length < (tree.keysOutside used).length := by
  have swapped : tree.keysOutside (used ++ [key]) = tree.keysOutside (key :: used) := by
    simp [keysOutside, or_comm]
  rw [swapped]
  exact keysOutside_cons_lt found fresh

theorem keysOutside_cons_of_none {tree : UITree} {key : String} {used : List String}
    (missing : tree.get? key = none) : tree.keysOutside (key :: used) = tree.keysOutside used := by
  have absent : key ∉ tree.elements.keys := by
    intro member
    obtain ⟨entry, inside, same⟩ := List.mem_map.mp member
    have := List.lookup_eq_none_iff.mp missing entry inside
    simp [same] at this
  apply List.filter_congr
  intro k inside
  have : k ≠ key := fun same => absent (same ▸ inside)
  simp [this]

end UITree

end TreeExport
