import TreeExport.Markup.Walk
import TreeExport.Registry.Basic
import TreeExport.Scaffold.Packaged
import TreeExport.Tree.Reachable

/-!
Building a project from a tree: the scaffold files, one file for each component that the tree uses and
the registry knows, the index of components, the page and the introduction. A build is a function of
the tree, the options, the registry and the depth limit alone.
-/

namespace TreeExport

structure GeneratedFile where
  path : String
  content : String
  deriving DecidableEq, Repr

structure GenerationResult where
  files : List GeneratedFile
  diagnostics : List Diagnostic

namespace GenerationResult

def paths (result : GenerationResult) : List String :=
  result.files.map GeneratedFile.path

def ok (result : GenerationResult) : Bool :=
  result.diagnostics.isEmpty

def get? (result : GenerationResult) (path : String) : Option GeneratedFile :=
  result.files.find? (·.path == path)

end GenerationResult

def defaultProjectName : String := "generated-dashboard"

structure GeneratorOptions where
  projectName : String
  data : Keyed Value

instance : Inhabited GeneratorOptions := ⟨⟨defaultProjectName, []⟩⟩

namespace Project

def componentDirectory : String := "components/ui"

def componentPath (component : String) : String :=
  componentDirectory ++ "/" ++ Scaffold.moduleName component ++ ".tsx"

def pageColumn : Int := 4

/-- The data as an indented literal, with all lines but the first two columns further right. -/
def dataLiteral (data : Value) : Except Literal.Error String := do
  let text ← Literal.encode (.indented 2) data
  return String.ofList (text.flatMap fun c => if c = '\n' then ['\n', ' ', ' '] else [c])

def leadingFiles : List (List Scaffold.Part × String) := [
  (Scaffold.manifest, "package.json"),
  (Scaffold.buildSettings, "next.config.js"),
  (Scaffold.compilerSettings, "tsconfig.json"),
  (Scaffold.globalStyles, "app/globals.css"),
  (Scaffold.layout, "app/layout.tsx")]

def trailingFiles : List (List Scaffold.Part × String) := [
  (Scaffold.index, componentDirectory ++ "/index.ts"),
  (Scaffold.page, "app/page.tsx"),
  (Scaffold.readme, "README.md")]

def renderFile (context : Scaffold.Context) (entry : List Scaffold.Part × String) :
    Except Scaffold.Error GeneratedFile := do
  let content ← Scaffold.render context entry.1
  return ⟨entry.2, content⟩

inductive Error where
  | unwritable (cause : Scaffold.Error)
  | defective (defects : List Defect)

def summaryLimit : Nat := 5

def defectSummary (defects : List Defect) : String :=
  let shown := "; ".intercalate ((defects.take summaryLimit).map Defect.message)
  let more := if summaryLimit < defects.length then
      s!"; ... ({defects.length - summaryLimit} more)"
    else ""
  s!"{defects.length} tree problem(s): {shown}{more}"

def Error.message : Error → String
  | .unwritable cause => cause.message
  | .defective defects => defectSummary defects

/-- The files of a project and the defects met on the way: those of the walk first, then the
components without a template. -/
structure Output where
  files : List GeneratedFile
  defects : List Defect

def Output.result (output : Output) : GenerationResult :=
  ⟨output.files, output.defects.map Defect.diagnostic⟩

def context (options : GeneratorOptions) (components : List String) (dataText markup : String) :
    Scaffold.Context := [
  ("project_name", .text options.projectName),
  ("components", .list (components.map Value.text)),
  ("data_literal", .text dataText),
  ("markup", .text markup)]

/-- The files of a project whose defects are tolerated. The used components may be listed in any order. -/
def outputListing (registry : Registry) (limit : Int) (tree : UITree) (options : GeneratorOptions)
    (used : List String) : Except Scaffold.Error Output := do
  let (components, missing) := registry.partition used
  let emission := tree.emit limit tree.root pageColumn
  let markup ← emission.text.mapError .literal
  let dataText ← (dataLiteral (.ofKeyed options.data)).mapError .literal
  let filled := context options components dataText markup
  let leading ← leadingFiles.mapM (renderFile filled)
  let sources := components.map fun component =>
    (⟨componentPath component, (registry.get? component).getD ""⟩ : GeneratedFile)
  let trailing ← trailingFiles.mapM (renderFile filled)
  return ⟨leading ++ sources ++ trailing, emission.defects ++ missing.map .missingTemplate⟩

def outputOf (registry : Registry) (limit : Int) (tree : UITree) (options : GeneratorOptions) :
    Except Scaffold.Error Output :=
  outputListing registry limit tree options tree.usedTypes

/-- What a build gives. A strict build that met any defect gives the defects instead of its output. -/
def accept (strict : Bool) (output : Except Scaffold.Error Output) : Except Error Output :=
  match output with
  | .error cause => .error (.unwritable cause)
  | .ok output =>
    if strict && !output.defects.isEmpty then .error (.defective output.defects) else .ok output

def buildListing (registry : Registry) (limit : Int) (strict : Bool) (tree : UITree)
    (options : GeneratorOptions) (used : List String) : Except Error Output :=
  accept strict (outputListing registry limit tree options used)

def build (registry : Registry) (limit : Int) (strict : Bool) (tree : UITree)
    (options : GeneratorOptions) : Except Error Output :=
  buildListing registry limit strict tree options tree.usedTypes

theorem build_eq_accept (registry : Registry) (limit : Int) (strict : Bool) (tree : UITree)
    (options : GeneratorOptions) :
    build registry limit strict tree options = accept strict (outputOf registry limit tree options) :=
  rfl

end Project

end TreeExport
