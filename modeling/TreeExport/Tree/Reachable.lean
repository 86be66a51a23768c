import TreeExport.Tree.Basic

/-!
What can be reached from the root. Both walks keep a stack of keys and go depth first with children
from left to right; each key counts once, so walks over trees with cycles end.
-/

namespace TreeExport

namespace UITree

/-- The keys reached from a stack of keys, behind those that were reached before, last one first. A
key that is missing or was reached before is passed over. -/
def reachFrom (tree : UITree) : (stack : List String) → (reached : List String) → List String
  | [], reached => reached
  | key :: stack, reached =>
    if _ : key ∈ reached then reachFrom tree stack reached
    else
      match _ : tree.get? key with
      | none => reachFrom tree stack reached
      | some element => reachFrom tree (element.childKeys ++ stack) (key :: reached)
  termination_by stack reached => ((tree.keysOutside reached).length, stack.length)
  decreasing_by
    · exact Prod.Lex.right _ (by simp)
    · exact Prod.Lex.right _ (by simp)
    · exact Prod.Lex.left _ _ (keysOutside_cons_lt ‹_› ‹_›)

def reachableKeys (tree : UITree) : List String :=
  (tree.reachFrom [tree.root] []).reverse

def addNew (items : List String) (item : String) : List String :=
  if item ∈ items then items else items ++ [item]

/-- The component names met from a stack of keys, after those met before. Keys are visited once;
a visited key may be missing from the tree. -/
def typesFrom (tree : UITree) :
    (stack visited : List String) → (types : List String) → List String
  | [], _, types => types
  | key :: stack, visited, types =>
    if _ : key ∈ visited then typesFrom tree stack visited types
    else
      match _ : tree.get? key with
      | none => typesFrom tree stack (key :: visited) types
      | some element =>
        typesFrom tree (element.childKeys ++ stack) (key :: visited) (addNew types element.type)
  termination_by stack visited => ((tree.keysOutside visited).length, stack.length)
  decreasing_by
    · exact Prod.Lex.right _ (by simp)
    · rw [keysOutside_cons_of_none ‹_›]
      exact Prod.Lex.right _ (by simp)
    · exact Prod.Lex.left _ _ (keysOutside_cons_lt ‹_› ‹_›)

def usedTypes (tree : UITree) : List String :=
  tree.typesFrom [tree.root] [] []

end UITree

end TreeExport
