import TreeExport.Disk
import TreeExport.Json
import TreeExport.Text.Case
import TreeExport.Yaml.Reading

/-!
Files that hold a mapping. Those whose names end in `.yaml` or `.yml` are YAML and all others are JSON.
-/

namespace TreeExport

namespace Document

inductive Error where
  | unreadable (cause : Disk.TextError)
  | json (cause : Json.Error)
  | yaml (path : Path) (cause : Yaml.Error)
  | notMapping (path : Path) (kind : String)

/-- What is told about a document. For malformed YAML this is only the lead: what the parser itself says of the
text and the place, which stands behind it, is left out. -/
def Error.message : Error → String
  | .unreadable cause => cause.message
  | .json cause => cause.message
  | .yaml path .malformed => s!"Invalid YAML in {path}"
  | .yaml _ cause => cause.message
  | .notMapping path kind => s!"Expected a mapping at the top level of {path}, got {kind}"

def isYaml (path : Path) : Bool :=
  [".yaml", ".yml"].contains (Text.lower path.suffix)

def readValue (path : Path) (text : String) : Except Error Value :=
  if isYaml path then (Yaml.read text).mapError (.yaml path)
  else (Json.read text).mapError .json

def load (disk : Disk) (path : Path) : Except Error (List (Value × Value)) := do
  let text ← (disk.readText path).mapError .unreadable
  match ← readValue path text with
  | .map entries => return entries
  | value => throw (.notMapping path value.kindName)

end Document

end TreeExport
