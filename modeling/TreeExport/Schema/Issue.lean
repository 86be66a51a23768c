/-!
What can be wrong with a value that is read into a record. Reading does not stop at the first problem:
an issue says where it arose, and the issues of all fields are collected in order.
-/

namespace TreeExport

namespace Schema

/-- Where a value comes from: values carry all kinds, documents those of JSON alone. Some problems are
worded differently for the two. -/
inductive Origin where
  | value
  | document
  deriving DecidableEq, Repr

inductive Problem where
  | missing
  | record (origin : Origin) (name : String)
  | map (origin : Origin)
  | list (origin : Origin)
  | text
  | textEncoding
  | integer
  | integerText
  | integerFraction
  | integerSize
  | notFinite
  | number
  | numberText
  | boolean
  | booleanText
  | path
  | oneOf (names : List String)
  | atLeast (bound : Int)
  | atMost (bound : Int)
  | above (bound : Int)
  | malformed
  deriving DecidableEq, Repr

namespace Problem

def code : Problem → String
  | .missing => "missing"
  | .record _ _ => "model_type"
  | .map _ => "dict_type"
  | .list _ => "list_type"
  | .text => "string_type"
  | .textEncoding => "string_unicode"
  | .integer => "int_type"
  | .integerText => "int_parsing"
  | .integerFraction => "int_from_float"
  | .integerSize => "int_parsing_size"
  | .notFinite => "finite_number"
  | .number => "float_type"
  | .numberText => "float_parsing"
  | .boolean => "bool_type"
  | .booleanText => "bool_parsing"
  | .path => "path_type"
  | .oneOf _ => "enum"
  | .atLeast _ => "greater_than_equal"
  | .atMost _ => "less_than_equal"
  | .above _ => "greater_than"
  | .malformed => "json_invalid"

def alternatives (names : List String) : String :=
  let quoted := names.map fun name => "'" ++ name ++ "'"
  match quoted.reverse with
  | [] => ""
  | [single] => single
  | last :: before => ", ".intercalate before.reverse ++ " or " ++ last

def message : Problem → String
  | .missing => "Field required"
  | .record .value name => "Input should be a valid dictionary or instance of " ++ name
  | .record .document _ => "Input should be an object"
  | .map .value => "Input should be a valid dictionary"
  | .map .document => "Input should be an object"
  | .list .value => "Input should be a valid list"
  | .list .document => "Input should be a valid array"
  | .text => "Input should be a valid string"
  | .textEncoding =>
    "Input should be a valid string, unable to parse raw data as a unicode string"
  | .integer => "Input should be a valid integer"
  | .integerText => "Input should be a valid integer, unable to parse string as an integer"
  | .integerFraction => "Input should be a valid integer, got a number with a fractional part"
  | .integerSize => "Unable to parse input string as an integer, exceeded maximum size"
  | .notFinite => "Input should be a finite number"
  | .number => "Input should be a valid number"
  | .numberText => "Input should be a valid number, unable to parse string as a number"
  | .boolean => "Input should be a valid boolean"
  | .booleanText => "Input should be a valid boolean, unable to interpret input"
  | .path => "Input is not a valid path for <class 'pathlib.Path'>"
  | .oneOf names => "Input should be " ++ alternatives names
  | .atLeast bound => s!"Input should be greater than or equal to {bound}"
  | .atMost bound => s!"Input should be less than or equal to {bound}"
  | .above bound => s!"Input should be greater than {bound}"
  | .malformed => "Invalid JSON"

end Problem

inductive Place where
  | name (name : String)
  | index (index : Int)
  deriving DecidableEq, Repr

structure Issue where
  place : List Place
  problem : Problem
  deriving DecidableEq, Repr

structure Failure where
  record : String
  issues : List Issue
  deriving DecidableEq, Repr

def Failure.headline (failure : Failure) : String :=
  let count := failure.issues.length
  let noun := if count = 1 then "error" else "errors"
  s!"{count} validation {noun} for {failure.record}"

def Place.text : Place → String
  | .name given => given
  | .index number => toString number

/-- A report of all issues, with the way to each value on a line of its own. What follows each
problem is left out: its type, the value as it was given, and a link to an explanation. -/
def Failure.report (failure : Failure) : String :=
  let lines := failure.issues.flatMap fun issue =>
    [".".intercalate (issue.place.map Place.text), "  " ++ issue.problem.message]
  "\n".intercalate (failure.headline :: lines)

inductive Checked (α : Type) where
  | valid (value : α)
  | invalid (issues : List Issue)

namespace Checked

variable {α β : Type}

def map (f : α → β) : Checked α → Checked β
  | .valid value => .valid (f value)
  | .invalid issues => .invalid issues

def ap : Checked (α → β) → Checked α → Checked β
  | .valid f, .valid value => .valid (f value)
  | .valid _, .invalid issues => .invalid issues
  | .invalid issues, .valid _ => .invalid issues
  | .invalid issues, .invalid more => .invalid (issues ++ more)

instance : Functor Checked where
  map := map

instance : Applicative Checked where
  pure := .valid
  seq f value := ap f (value ())

def andThen (checked : Checked α) (next : α → Checked β) : Checked β :=
  match checked with
  | .valid value => next value
  | .invalid issues => .invalid issues

def problem (problem : Problem) : Checked α :=
  .invalid [⟨[], problem⟩]

def within (place : Place) : Checked α → Checked α
  | .valid value => .valid value
  | .invalid issues => .invalid (issues.map fun issue => ⟨place :: issue.place, issue.problem⟩)

def all : List (Checked α) → Checked (List α)
  | [] => .valid []
  | first :: rest => List.cons <$> first <*> all rest

def ensure (checked : Checked α) (test : α → Bool) (failed : Problem) : Checked α :=
  checked.andThen fun value => if test value then .valid value else problem failed

def named (record : String) : Checked α → Except Failure α
  | .valid value => .ok value
  | .invalid issues => .error ⟨record, issues⟩

end Checked

end Schema

end TreeExport
