import TreeExport.Schema.Record
import TreeExport.Project

/-!
Reading trees, options and results from values.
-/

namespace TreeExport

open Schema

namespace Element

def readChildren : Value → Checked (Option (List String))
  | .null => .valid none
  | value => some <$> listOf .value text value

def check (value : Value) : Checked Element :=
  (fieldsOf .value "UIElement" value).andThen fun entries =>
    Element.mk <$> required entries "key" text <*> required entries "type" text
      <*> optional entries "props" [] (mapOf .value .valid)
      <*> optional entries "children" none readChildren

def ofValue (value : Value) : Except Failure Element :=
  (check value).named "UIElement"

end Element

namespace UITree

/-- The entries of a tree's elements; an element without a key takes the one that it is stored under. -/
def withDefaultKeys : Value → Value
  | .map entries =>
    .map (entries.map fun (key, element) =>
      match element with
      | .map fields =>
        match Value.lookup? fields "key" with
        | some _ => (key, element)
        | none => (key, .map (fields ++ [(.text "key", key)]))
      | element => (key, element))
  | value => value

def check (value : Value) : Checked UITree :=
  (fieldsOf .value "UITree" value).andThen fun entries =>
    UITree.mk <$> required entries "root" text
      <*> optional entries "elements" [] fun value =>
        mapOf .value Element.check (withDefaultKeys value)

def ofValue (value : Value) : Except Failure UITree :=
  (check value).named "UITree"

end UITree

namespace GeneratorOptions

def check (value : Value) : Checked GeneratorOptions :=
  (fieldsOf .value "GeneratorOptions" value).andThen fun entries =>
    GeneratorOptions.mk <$> optional entries "project_name" defaultProjectName text
      <*> optional entries "data" [] (mapOf .value .valid)

def ofValue (value : Value) : Except Failure GeneratorOptions :=
  (check value).named "GeneratorOptions"

def ofEntries (entries : List (Value × Value)) : Except Failure GeneratorOptions :=
  ofValue (.map (entries.filter fun (_, value) =>
    match value with
    | .null => false
    | _ => true))

end GeneratorOptions

namespace GenerationResult

def readKind (value : Value) : Checked DiagnosticKind :=
  let unknown : Checked DiagnosticKind :=
    Checked.problem (.oneOf (DiagnosticKind.all.map DiagnosticKind.name))
  match value with
  | .text name =>
    match DiagnosticKind.ofName? name with
    | some kind => .valid kind
    | none => unknown
  | _ => unknown

def readDiagnostic (value : Value) : Checked Diagnostic :=
  (fieldsOf .value "Diagnostic" value).andThen fun entries =>
    Diagnostic.mk <$> required entries "kind" readKind <*> required entries "key" text
      <*> optional entries "message" "" text

def readFile (value : Value) : Checked GeneratedFile :=
  (fieldsOf .value "GeneratedFile" value).andThen fun entries =>
    GeneratedFile.mk <$> required entries "path" text <*> required entries "content" text

def check (value : Value) : Checked GenerationResult :=
  (fieldsOf .value "GenerationResult" value).andThen fun entries =>
    GenerationResult.mk <$> optional entries "files" [] (listOf .value readFile)
      <*> optional entries "diagnostics" [] (listOf .value readDiagnostic)

def ofValue (value : Value) : Except Failure GenerationResult :=
  (check value).named "GenerationResult"

end GenerationResult

end TreeExport
