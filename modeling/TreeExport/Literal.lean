import TreeExport.Value.Display

/-!
Values as script literals. Every literal in generated source is written here, so escaping is decided
in one place. A value that the literal syntax cannot express is written as a quoted text of itself;
only a map key that is no scalar, an endless collection and an overlong integer are refused.
-/

namespace TreeExport

namespace Literal

inductive Spacing where
  | compact
  | indented (width : Int)
  deriving DecidableEq, Repr

inductive Error where
  | keyKind (name : String)
  | endless
  | longInteger
  deriving DecidableEq, Repr

def Error.message : Error → String
  | .keyKind name => s!"keys must be str, int, float, bool or None, not {name}"
  | .endless => "Circular reference detected"
  | .longInteger =>
    "Exceeds the limit (4300 digits) for integer string conversion; "
      ++ "use sys.set_int_max_str_digits() to increase the limit"

def digitLimit : Nat := 4300

def escapeChar (c : Char) : List Char :=
  if c = '"' then ['\\', '"']
  else if c = '\\' then ['\\', '\\']
  else if c = '\n' then ['\\', 'n']
  else if c = '\r' then ['\\', 'r']
  else if c = '\t' then ['\\', 't']
  else if c = '\x08' then ['\\', 'b']
  else if c = '\x0c' then ['\\', 'f']
  else if c.toNat < 0x20 then '\\' :: 'u' :: Text.hexPadded 4 c.toNat
  else [c]

def quote (text : List Char) : List Char :=
  '"' :: text.flatMap escapeChar ++ ['"']

def integer (n : Int) : Except Error (List Char) :=
  if n.natAbs < Nat.pow 10 digitLimit then .ok (Value.integerText n) else .error .longInteger

def display (value : Value) : Except Error (List Char) :=
  if value.integers.all fun n => n.natAbs < Nat.pow 10 digitLimit then .ok value.shown
  else .error .longInteger

def keyText (spacing : Spacing) : Value → Except Error (List Char)
  | .text value => .ok value.toList
  | .null => .ok "null".toList
  | .bool value => .ok (if value then "true" else "false").toList
  | .int value => integer value
  | .float value => .ok (value.render .literal)
  | key =>
    .error (.keyKind (match spacing with
      | .compact => key.qualifiedKindName
      | .indented _ => key.kindName))

namespace Spacing

def lineBreak (spacing : Spacing) (depth : Nat) : List Char :=
  match spacing with
  | .compact => []
  | .indented width => '\n' :: List.replicate (width.toNat * depth) ' '

def colon : Spacing → List Char
  | .compact => [':']
  | .indented _ => [':', ' ']

end Spacing

def bracket (spacing : Spacing) (depth : Nat) (opening closing : Char)
    (pieces : List (List Char)) : List Char :=
  match pieces with
  | [] => [opening, closing]
  | pieces =>
    let separator := ',' :: spacing.lineBreak (depth + 1)
    opening :: spacing.lineBreak (depth + 1) ++ separator.intercalate pieces ++
      spacing.lineBreak depth ++ [closing]

mutual

def encodeAt (spacing : Spacing) (depth : Nat) : Value → Except Error (List Char)
  | .null => .ok "null".toList
  | .bool value => .ok (if value then "true" else "false").toList
  | .int value => integer value
  | .float value => .ok (value.render .literal)
  | .text value => .ok (quote value.toList)
  | .list items => return bracket spacing depth '[' ']' (← encodeItems spacing (depth + 1) items)
  | .tuple items => return bracket spacing depth '[' ']' (← encodeItems spacing (depth + 1) items)
  | .map entries =>
    return bracket spacing depth '\x7b' '\x7d' (← encodeEntries spacing (depth + 1) entries)
  | .endless => .error .endless
  | value => return quote (← display value)

def encodeItems (spacing : Spacing) (depth : Nat) : List Value → Except Error (List (List Char))
  | [] => .ok []
  | item :: rest => do
    let text ← encodeAt spacing depth item
    return text :: (← encodeItems spacing depth rest)

def encodeEntries (spacing : Spacing) (depth : Nat) :
    List (Value × Value) → Except Error (List (List Char))
  | [] => .ok []
  | (key, value) :: rest => do
    let name ← keyText spacing key
    let text ← encodeAt spacing depth value
    return (quote name ++ spacing.colon ++ text) :: (← encodeEntries spacing depth rest)

end

def encode (spacing : Spacing) (value : Value) : Except Error (List Char) :=
  encodeAt spacing 0 value

def write (spacing : Spacing) (value : Value) : Except Error String :=
  return String.ofList (← encode spacing value)

end Literal

end TreeExport
