import TreeExport.Command.Usage
import TreeExport.Config.Reading
import TreeExport.Console.Message
import TreeExport.Console.Summary
import TreeExport.Document
import TreeExport.Feed.Dashboard
import TreeExport.Project.Write
import TreeExport.Registry.Packaged
import TreeExport.Tree.Reading

/-!
Running a command. A run first prepares an export, which reads files and prints but changes nothing; only
then are the files of the project written, or just listed if the run is a dry one.
-/

namespace TreeExport

namespace Command

structure Setting where
  environment : Keyed String
  network : Http.Network
  console : Console

/-- An error that ends a run without a message. -/
inductive Failure where
  | document (cause : Document.Error)
  | feed (cause : Feed.Error)
  | options (failure : Schema.Failure)
  | unwritable (cause : Scaffold.Error)
  | disk (cause : Disk.Error)
  | markup (cause : Console.MarkupError)
  | summary (cause : Console.SummaryError)

def Failure.message : Failure → String
  | .document cause => cause.message
  | .feed cause => cause.message
  | .options failure => failure.report
  | .unwritable cause => cause.message
  | .disk cause => cause.message
  | .markup cause => cause.message
  | .summary cause => cause.message

inductive Ending where
  | exit (status : Nat)
  | failure (cause : Failure)

structure Outcome where
  ending : Ending
  printed : String
  complaint : String
  disk : Disk

/-! ### Printing -/

abbrev Talk := ExceptT Ending (StateM String)

variable {α : Type}

def fail (cause : Failure) : Talk α := throw (.failure cause)

def orFail {ε : Type} (wrap : ε → Failure) (result : Except ε α) : Talk α :=
  match result with
  | .ok value => pure value
  | .error cause => fail (wrap cause)

def put (text : String) : Talk Unit := modify (· ++ text)

def say (console : Console) (text : String) : Talk Unit := do
  put (← orFail .markup (console.print text))

def tell (console : Console) (tone : Console.Tone) (message : String) : Talk Unit := do
  put (← orFail .markup (console.printMessage tone message))

def tellAll (console : Console) (tone : Console.Tone) (messages : List String) : Talk Unit :=
  messages.forM (tell console tone)

def refusedStatus : Nat := 1

def refuse (console : Console) (message : String) : Talk α := do
  tell console .error ("Error: " ++ message)
  throw (.exit refusedStatus)

/-! ### Preparing -/

def configure (environment : Keyed String) (options : Options) :
    Except Config.EnvironmentError Config := do
  let config ← Config.ofEnvironment environment
  let generator := config.generator
  return { config with
    outputDir := (options.output.map Path.ofString).getD config.outputDir
    projectName := options.projectName.getD config.projectName
    generator := { generator with strict := generator.strict || options.strict } }

def yamlComplaint (path : Path) (cause : Yaml.Error) : Option String :=
  match cause with
  | .unknownBoolean _ => none
  | .emptyNumber => none
  | .largeNumber => none
  | .noTimestamp => none
  | .timestampOfCollection => none
  | .hugeCodePoint => none
  | cause => some (Document.Error.yaml path cause).message

/-- What is told about a document that is not loaded, if the run goes on to tell it. -/
def complaint : Document.Error → Option String
  | .unreadable (.disk cause) =>
    match cause.fault with
    | .missing => some ("file not found: " ++ cause.path.toString)
    | .zeroCharacter => some cause.message
    | _ => none
  | .yaml path cause => yamlComplaint path cause
  | cause => some cause.message

def load (console : Console) (disk : Disk) (path : String) : Talk (List (Value × Value)) :=
  match Document.load disk (Path.ofString path) with
  | .ok entries => pure entries
  | .error cause =>
    match complaint cause with
    | some message => refuse console message
    | none => fail (.document cause)

def loadTree (console : Console) (disk : Disk) (path : String) : Talk UITree := do
  match UITree.ofValue (.map (← load console disk path)) with
  | .ok tree => pure tree
  | .error failure => refuse console ("invalid UI tree: " ++ failure.report)

def fetchData (setting : Setting) (config : Config) : Talk (List (Value × Value)) := do
  say setting.console "  Fetching live provider data..."
  let report := Dashboard.build setting.network config.providers
  tellAll setting.console .warning report.warnings
  let data ← orFail .feed report.data
  return data.map fun (name, value) => (.text name, value)

def readData (setting : Setting) (options : Options) (config : Config) (disk : Disk) :
    Talk (List (Value × Value)) :=
  if options.live then fetchData setting config
  else
    match options.data with
    | some path => load setting.console disk path
    | none => pure []

def defectLine (diagnostic : Diagnostic) : String :=
  "  [" ++ diagnostic.kind.name ++ "] " ++ diagnostic.message

def build (console : Console) (config : Config) (tree : UITree) (data : List (Value × Value)) :
    Talk GenerationResult := do
  let entries := [(.text "project_name", .text config.projectName), (.text "data", .map data)]
  let options ← orFail .options (GeneratorOptions.ofEntries entries)
  match Project.build Registry.packaged config.generator.maxDepth config.generator.strict tree
      options with
  | .ok output => return output.result
  | .error (.unwritable cause) => fail (.unwritable cause)
  | .error (.defective defects) =>
    tellAll console .error (defects.map fun defect => defectLine defect.diagnostic)
    refuse console (Project.defectSummary defects)

def summaryTitle : String := "Export Summary"

def report (console : Console) (config : Config) (tree : UITree) (result : GenerationResult) :
    Talk Unit := do
  let count (items : Nat) : Value := .text (toString items)
  let entries := [
    (Value.text "Project", Value.text config.projectName),
    (.text "Reachable elements", count tree.reachableKeys.length),
    (.text "Files", count result.files.length),
    (.text "Diagnostics", count result.diagnostics.length)]
  put (← orFail .summary (console.summary entries summaryTitle))
  tellAll console .warning (result.diagnostics.map defectLine)

structure Prepared where
  directory : Path
  result : GenerationResult

def prepare (setting : Setting) (arguments : Arguments) (disk : Disk) : Talk Prepared := do
  let console := setting.console
  match configure setting.environment arguments.toOptions with
  | .error cause => refuse console ("invalid configuration: " ++ cause.message)
  | .ok config =>
    let tree ← loadTree console disk arguments.tree
    let data ← readData setting arguments.toOptions config disk
    let result ← build console config tree data
    report console config tree result
    return ⟨config.projectPath, result⟩

/-! ### Running -/

def settle (work : Talk Unit) (printed : String) (disk : Disk) : Outcome :=
  match work.run printed with
  | (.ok _, printed) => ⟨.exit 0, printed, "", disk⟩
  | (.error ending, printed) => ⟨ending, printed, "", disk⟩

def list (console : Console) (prepared : Prepared) : Talk Unit :=
  prepared.result.paths.forM fun path => say console ("  " ++ Console.escape path)

def write (console : Console) (prepared : Prepared) (printed : String) (disk : Disk) : Outcome :=
  match (Project.writeFiles prepared.directory prepared.result.files).run disk with
  | (.error cause, disk) => ⟨.failure (.disk cause), printed, "", disk⟩
  | (.ok written, disk) =>
    let message := s!"Wrote {written.length} files to {prepared.directory}"
    settle (tell console .success message) printed disk

def run (setting : Setting) (arguments : Arguments) (disk : Disk) : Outcome :=
  match (prepare setting arguments disk).run "" with
  | (.error ending, printed) => ⟨ending, printed, "", disk⟩
  | (.ok prepared, printed) =>
    if arguments.dryRun then settle (list setting.console prepared) printed disk
    else write setting.console prepared printed disk

def usageStatus : Nat := 2

def invoke (setting : Setting) (words : List String) (disk : Disk) : Outcome :=
  match parse words with
  | .error cause => ⟨.exit usageStatus, "", refusal cause, disk⟩
  | .ok .help => ⟨.exit 0, help, "", disk⟩
  | .ok (.generate arguments) => run setting arguments disk

end Command

end TreeExport
