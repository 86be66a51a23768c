import TreeExport.Keyed
import TreeExport.Text.Quoted
import TreeExport.Text.SortedSet

/-!
Registries of component templates: the complete source of each component by its name. A registry does
not change once it is built.
-/

namespace TreeExport

structure Registry where
  templates : Keyed String

namespace Registry

def ofLines (lines : List String) : String :=
  String.join (lines.map (· ++ "\n"))

def get? (registry : Registry) (name : String) : Option String :=
  registry.templates.get? name

def contains (registry : Registry) (name : String) : Bool :=
  registry.templates.has name

def size (registry : Registry) : Nat :=
  registry.templates.length

def names (registry : Registry) : List String :=
  Text.sortedSet registry.templates.keys

def partition (registry : Registry) (names : List String) : List String × List String :=
  (Text.sortedSet names).partition registry.contains

def summary (registry : Registry) : String :=
  let quoted := registry.names.map fun name => Text.quoted name.toList
  String.ofList ("ComponentRegistry([".toList ++ [',', ' '].intercalate quoted ++ "])".toList)

end Registry

end TreeExport
