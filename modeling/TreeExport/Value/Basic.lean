import TreeExport.Binary64.Basic
import TreeExport.Calendar
import TreeExport.Path

/-!
The dynamic values that documents hold and that end up in generated source: scalars, sequences, and
maps whose keys may be any scalar. Maps keep the order in which their keys first came.
-/

namespace TreeExport

inductive Value where
  | null
  | bool (value : Bool)
  | int (value : Int)
  | float (value : Binary64)
  | text (value : String)
  | list (items : List Value)
  | tuple (items : List Value)
  | map (entries : List (Value × Value))
  /-- The members of a set, in the order in which it gives them. -/
  | set (items : List Value)
  | bytes (data : List UInt8)
  | date (value : Date)
  | dateTime (value : DateTime)
  | path (value : Path)
  /-- A place where a collection holds itself again without end. -/
  | endless
  deriving Inhabited

namespace Value

def kindName : Value → String
  | .null => "NoneType"
  | .bool _ => "bool"
  | .int _ => "int"
  | .float _ => "float"
  | .text _ => "str"
  | .list _ => "list"
  | .tuple _ => "tuple"
  | .map _ => "dict"
  | .set _ => "set"
  | .bytes _ => "bytes"
  | .date _ => "date"
  | .dateTime _ => "datetime"
  | .path _ => "PosixPath"
  | .endless => "list"

def qualifiedKindName : Value → String
  | .date _ => "datetime.date"
  | .dateTime _ => "datetime.datetime"
  | value => value.kindName

def integer? : Value → Option Int
  | .bool value => some (if value then 1 else 0)
  | .int value => some value
  | _ => none

def sameNumber (left right : Value) : Bool :=
  match left.integer?, right.integer?, left, right with
  | some a, some b, _, _ => a == b
  | some a, none, _, .float y => y.toInt? == some a
  | none, some b, .float x, _ => x.toInt? == some b
  | none, none, .float x, .float y => x.eqv y
  | _, _, _, _ => false

mutual

def sameKey : Value → Value → Bool
  | .null, .null => true
  | .text a, .text b => a == b
  | .bytes a, .bytes b => a == b
  | .date a, .date b => a == b
  | .dateTime a, .dateTime b => a.same b
  | .path a, .path b => a == b
  | .tuple a, .tuple b => sameKeys a b
  | a, b => sameNumber a b

def sameKeys : List Value → List Value → Bool
  | [], [] => true
  | a :: as, b :: bs => sameKey a b && sameKeys as bs
  | _, _ => false

end

/-- The entries with a value at a key: a key that is present keeps its place and its form. -/
def putEntry : List (Value × Value) → Value → Value → List (Value × Value)
  | [], key, value => [(key, value)]
  | (k, v) :: rest, key, value =>
    if sameKey k key then (k, value) :: rest else (k, v) :: putEntry rest key value

def ofEntries (entries : List (Value × Value)) : Value :=
  .map (entries.foldl (fun map entry => putEntry map entry.1 entry.2) [])

def ofKeyed (entries : List (String × Value)) : Value :=
  .map (entries.map fun (key, value) => (.text key, value))

def lookup? (entries : List (Value × Value)) (name : String) : Option Value :=
  match entries with
  | [] => none
  | (.text key, value) :: rest => if key = name then some value else lookup? rest name
  | _ :: rest => lookup? rest name

def isTruthy : Value → Bool
  | .null => false
  | .bool value => value
  | .int value => value != 0
  | .float value => !value.eqv (Binary64.zero false)
  | .text value => value != ""
  | .list items => !items.isEmpty
  | .tuple items => !items.isEmpty
  | .map entries => !entries.isEmpty
  | .set items => !items.isEmpty
  | .bytes data => !data.isEmpty
  | _ => true

end Value

end TreeExport
