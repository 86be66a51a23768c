import TreeExport.Keyed
import TreeExport.Literal
import TreeExport.Text.Case
import TreeExport.Text.SortedSet

/-!
Templates of scaffold files. A template is a list of parts; rendering it fills in the values of a
context. A name that the context lacks is undefined: it shows as nothing, counts as false, holds no
items, and is written as the empty literal.
-/

namespace TreeExport

namespace Scaffold

inductive Part where
  /-- Fixed text. -/
  | text (content : String)
  /-- Fixed lines, each with a line feed at its end. -/
  | lines (contents : List String)
  /-- A value as a reader is shown it. -/
  | shown (name : String)
  /-- A value as a script literal. -/
  | literal (name : String)
  /-- The items of a value with a text between them. -/
  | joined (name separator : String)
  /-- A component's name as the name of its module. -/
  | moduleName (name : String)
  /-- Parts for a value that counts as true. -/
  | whenTrue (name : String) (parts : List Part)
  /-- Parts for each item of a value, which has a name of its own in them. -/
  | forEach (item name : String) (parts : List Part)

abbrev Context := Keyed Value

inductive Error where
  | unknownTemplate
  | literal (cause : Literal.Error)
  | noItems (kindName : String)
  | noLowerCase (kindName : String)
  deriving DecidableEq, Repr

def Error.message : Error → String
  | .unknownTemplate => ""
  | .literal cause => cause.message
  | .noItems kindName => s!"'{kindName}' object is not iterable"
  | .noLowerCase kindName => s!"'{kindName}' object has no attribute 'lower'"

def moduleName (component : String) : String :=
  Text.lower component

def showValue (value : Value) : Except Error (List Char) :=
  (Literal.display value).mapError .literal

def itemsOf : Option Value → Except Error (List Value)
  | none => .ok []
  | some (.list items) => .ok items
  | some (.tuple items) => .ok items
  | some (.set items) => .ok items
  | some (.map entries) => .ok (entries.map Prod.fst)
  | some (.text value) => .ok (value.toList.map fun c => .text (String.singleton c))
  | some (.bytes data) => .ok (data.map fun byte => .int byte.toNat)
  | some value => .error (.noItems value.qualifiedKindName)

def moduleOf : Option Value → Except Error (List Char)
  | none => .ok []
  | some (.text value) => .ok (moduleName value).toList
  | some (.bytes data) =>
    let lowered := data.map fun byte => if 65 ≤ byte ∧ byte ≤ 90 then byte + 32 else byte
    .ok (Text.quotedBytes lowered)
  | some value => .error (.noLowerCase value.qualifiedKindName)

mutual

def renderPart (context : Context) : Part → Except Error (List Char)
  | .text content => .ok content.toList
  | .lines contents => .ok (contents.flatMap fun line => line.toList ++ ['\n'])
  | .shown name =>
    match context.get? name with
    | none => .ok []
    | some value => showValue value
  | .literal name =>
    match context.get? name with
    | none => .ok ['"', '"']
    | some value => (Literal.encode .compact value).mapError .literal
  | .joined name separator => do
    let items ← itemsOf (context.get? name)
    let texts ← items.mapM showValue
    return separator.toList.intercalate texts
  | .moduleName name => moduleOf (context.get? name)
  | .whenTrue name parts =>
    if ((context.get? name).map Value.isTruthy).getD false then renderParts context parts
    else .ok []
  | .forEach bound name parts => do
    let items ← itemsOf (context.get? name)
    let texts ← items.mapM fun item => renderParts ((bound, item) :: context) parts
    return texts.flatten

def renderParts (context : Context) : List Part → Except Error (List Char)
  | [] => .ok []
  | part :: rest => do
    let text ← renderPart context part
    return text ++ (← renderParts context rest)

end

def render (context : Context) (template : List Part) : Except Error String :=
  return String.ofList (← renderParts context template)

end Scaffold

end TreeExport
