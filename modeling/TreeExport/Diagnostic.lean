/-!
Defects of a tree that generation tolerates. A defect is its cause; its kind, the key it concerns and
its wording follow from the cause.
-/

namespace TreeExport

inductive DiagnosticKind where
  | missingElement
  | missingTemplate
  | cycle
  | depthLimit
  deriving DecidableEq, Repr

namespace DiagnosticKind

def name : DiagnosticKind → String
  | .missingElement => "missing_element"
  | .missingTemplate => "missing_template"
  | .cycle => "cycle"
  | .depthLimit => "depth_limit"

def all : List DiagnosticKind := [.missingElement, .missingTemplate, .cycle, .depthLimit]

def ofName? (name : String) : Option DiagnosticKind :=
  all.find? (·.name == name)

end DiagnosticKind

structure Diagnostic where
  kind : DiagnosticKind
  key : String
  message : String
  deriving DecidableEq, Repr

inductive Defect where
  /-- No element has the key. -/
  | missingElement (key : String)
  /-- The key leads back to one of its ancestors, which are listed from the outermost on. -/
  | cycle (ancestors : List String) (key : String)
  /-- The key lies deeper than the limit. -/
  | depthLimit (key : String) (limit : Int)
  /-- No template is registered for the component. -/
  | missingTemplate (component : String)
  deriving DecidableEq, Repr

namespace Defect

def kind : Defect → DiagnosticKind
  | .missingElement _ => .missingElement
  | .cycle _ _ => .cycle
  | .depthLimit _ _ => .depthLimit
  | .missingTemplate _ => .missingTemplate

def key : Defect → String
  | .missingElement key => key
  | .cycle _ key => key
  | .depthLimit key _ => key
  | .missingTemplate component => component

def message : Defect → String
  | .missingElement key => s!"Element '{key}' not found"
  | .cycle ancestors key => "Cycle detected: " ++ " -> ".intercalate (ancestors ++ [key])
  | .depthLimit key limit => s!"Element '{key}' exceeds the maximum depth of {limit}"
  | .missingTemplate component => s!"No template registered for component '{component}'"

def diagnostic (defect : Defect) : Diagnostic :=
  ⟨defect.kind, defect.key, defect.message⟩

end Defect

end TreeExport
