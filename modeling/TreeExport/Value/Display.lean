import TreeExport.Value.Basic
import TreeExport.Binary64.Layout
import TreeExport.Text.Quoted

/-!
The text of a value as a reader is shown it. `shown` is the value on its own, `quoted` the value as
a part of another one; they differ for texts, dates and paths.
-/

namespace TreeExport

namespace Value

def integerText (n : Int) : List Char :=
  (if n < 0 then ['-'] else []) ++ Nat.toDigits 10 n.natAbs

mutual

def integers : Value → List Int
  | .int value => [value]
  | .list items => integersOf items
  | .tuple items => integersOf items
  | .set items => integersOf items
  | .map entries => integersIn entries
  | _ => []

def integersOf : List Value → List Int
  | [] => []
  | item :: rest => integers item ++ integersOf rest

def integersIn : List (Value × Value) → List Int
  | [] => []
  | (key, value) :: rest => integers key ++ integers value ++ integersIn rest

end

mutual

def quoted : Value → List Char
  | .null => "None".toList
  | .bool value => (if value then "True" else "False").toList
  | .int value => integerText value
  | .float value => value.render .display
  | .text value => Text.quoted value.toList
  | .list items => '[' :: [',', ' '].intercalate (quotedItems items) ++ [']']
  | .tuple items =>
    match quotedItems items with
    | [single] => '(' :: single ++ [',', ')']
    | pieces => '(' :: [',', ' '].intercalate pieces ++ [')']
  | .map entries => '\x7b' :: [',', ' '].intercalate (quotedEntries entries) ++ ['\x7d']
  | .set items =>
    match quotedItems items with
    | [] => "set()".toList
    | pieces => '\x7b' :: [',', ' '].intercalate pieces ++ ['\x7d']
  | .bytes data => Text.quotedBytes data
  | .date value => value.fields
  | .dateTime value => value.fields
  | .path value => "PosixPath(".toList ++ Text.quoted value.toString.toList ++ [')']
  | .endless => "[...]".toList

def quotedItems : List Value → List (List Char)
  | [] => []
  | item :: rest => quoted item :: quotedItems rest

def quotedEntries : List (Value × Value) → List (List Char)
  | [] => []
  | (key, value) :: rest => (quoted key ++ ':' :: ' ' :: quoted value) :: quotedEntries rest

end

def shown : Value → List Char
  | .text value => value.toList
  | .date value => value.text
  | .dateTime value => value.text
  | .path value => value.toString.toList
  | value => quoted value

end Value

end TreeExport
