import TreeExport.Text.Split

/-!
File paths: an optional root and the names below it. Empty names and the name `.` do not count, so
every path has one form; `..` is kept as a name.
-/

namespace TreeExport

/-- Where a path starts. A path that starts with exactly two slashes keeps both. -/
inductive PathRoot where
  | none
  | slash
  | doubleSlash
  deriving DecidableEq, Repr

namespace PathRoot

def text : PathRoot → String
  | .none => ""
  | .slash => "/"
  | .doubleSlash => "//"

def ofChars : List Char → PathRoot
  | '/' :: '/' :: '/' :: _ => .slash
  | '/' :: '/' :: _ => .doubleSlash
  | '/' :: _ => .slash
  | _ => .none

end PathRoot

structure IsPathName (text : String) : Prop where
  filled : text ≠ ""
  moves : text ≠ "."
  single : '/' ∉ text.toList

instance (text : String) : Decidable (IsPathName text) :=
  decidable_of_iff (text ≠ "" ∧ text ≠ "." ∧ '/' ∉ text.toList)
    ⟨fun ⟨filled, moves, single⟩ => ⟨filled, moves, single⟩,
      fun ⟨filled, moves, single⟩ => ⟨filled, moves, single⟩⟩

structure PathName where
  text : String
  counts : IsPathName text
  deriving DecidableEq, Repr

def PathName.ofString? (text : String) : Option PathName :=
  if counts : IsPathName text then some ⟨text, counts⟩ else none

structure Path where
  root : PathRoot
  parts : List PathName
  deriving DecidableEq, Repr

namespace Path

def names (path : Path) : List String :=
  path.parts.map PathName.text

def ofString (text : String) : Path :=
  let chars := text.toList
  let pieces := (Text.split '/' chars).map String.ofList
  ⟨PathRoot.ofChars chars, pieces.filterMap PathName.ofString?⟩

/-- The text of a path; the empty path is written `.`. -/
def toString (path : Path) : String :=
  match path.root, path.names with
  | .none, [] => "."
  | root, names => root.text ++ "/".intercalate names

instance : ToString Path := ⟨toString⟩

def join (base next : Path) : Path :=
  match next.root with
  | .none => ⟨base.root, base.parts ++ next.parts⟩
  | _ => next

def parent (path : Path) : Path :=
  ⟨path.root, path.parts.dropLast⟩

def name (path : Path) : String :=
  path.names.getLast?.getD ""

/-- The part of the last name from its last dot on, unless the name starts or ends with that dot. -/
def suffix (path : Path) : String :=
  let reversed := path.name.toList.reverse
  let after := reversed.takeWhile (· != '.')
  let before := (reversed.drop after.length).drop 1
  if after.isEmpty || before.isEmpty || after.length == reversed.length then ""
  else String.ofList ('.' :: after.reverse)

def stem (path : Path) : String :=
  String.ofList (path.name.toList.take (path.name.length - path.suffix.length))

@[simp] theorem names_nil (root : PathRoot) : (⟨root, []⟩ : Path).names = [] := rfl

@[simp] theorem names_append (root : PathRoot) (upper lower : List PathName) :
    (⟨root, upper ++ lower⟩ : Path).names = (⟨root, upper⟩ : Path).names ++ lower.map PathName.text :=
  List.map_append

end Path

end TreeExport
