import TreeExport.Proofs.Command.Talk
import TreeExport.Proofs.Project.Output

/-!
What a run does, apart from what it says. A plan reads the settings, the tree and the data and builds the
project; it changes nothing and says nothing. A run follows its plan: an obstacle ends it, with a report or
without one, and leaves the disk alone, and otherwise the files of the planned project are written or listed.
-/

namespace TreeExport

namespace Command

inductive Obstacle where
  | settings (cause : Config.EnvironmentError)
  | document (cause : Document.Error)
  | feed (cause : Feed.Error)
  | tree (failure : Schema.Failure)
  | options (failure : Schema.Failure)
  | project (cause : Project.Error)

namespace Obstacle

def report : Obstacle → Except Failure (List String)
  | .settings cause => .ok ["Error: " ++ ("invalid configuration: " ++ cause.message)]
  | .document cause =>
    match complaint cause with
    | some message => .ok ["Error: " ++ message]
    | none => .error (.document cause)
  | .feed cause => .error (.feed cause)
  | .tree failure => .ok ["Error: " ++ ("invalid UI tree: " ++ failure.report)]
  | .options failure => .error (.options failure)
  | .project (.unwritable cause) => .error (.unwritable cause)
  | .project (.defective defects) =>
    .ok (defects.map (fun defect => defectLine defect.diagnostic)
      ++ ["Error: " ++ Project.defectSummary defects])

def ending (obstacle : Obstacle) : Ending :=
  match obstacle.report with
  | .ok _ => .exit refusedStatus
  | .error cause => .failure cause

def text (console : Console) (obstacle : Obstacle) : String :=
  match obstacle.report with
  | .ok messages => messagesText console .error messages
  | .error _ => ""

theorem ending_ne_zero (obstacle : Obstacle) : obstacle.ending ≠ .exit 0 := by
  rw [ending]
  cases obstacle.report with
  | ok messages => simp [refusedStatus]
  | error cause => exact nofun

end Obstacle

structure Plan where
  config : Config
  tree : UITree
  output : Project.Output

def Plan.prepared (plan : Plan) : Prepared := ⟨plan.config.projectPath, plan.output.result⟩

/-! ### Planning -/

def entriesOf (disk : Disk) (path : String) : Except Obstacle (List (Value × Value)) :=
  (Document.load disk (Path.ofString path)).mapError .document

def treeOf (disk : Disk) (path : String) : Except Obstacle UITree := do
  let entries ← entriesOf disk path
  (UITree.ofValue (.map entries)).mapError .tree

def liveData (network : Http.Network) (config : Config) : Except Obstacle (List (Value × Value)) := do
  let data ← (Dashboard.build network config.providers).data.mapError .feed
  return data.map fun (name, value) => (.text name, value)

def dataOf (setting : Setting) (options : Options) (config : Config) (disk : Disk) :
    Except Obstacle (List (Value × Value)) :=
  if options.live then liveData setting.network config
  else
    match options.data with
    | some path => entriesOf disk path
    | none => .ok []

def optionsOf (config : Config) (data : List (Value × Value)) : Except Obstacle GeneratorOptions :=
  (GeneratorOptions.ofEntries [(.text "project_name", .text config.projectName),
    (.text "data", .map data)]).mapError .options

def outputOf (config : Config) (tree : UITree) (options : GeneratorOptions) :
    Except Obstacle Project.Output :=
  (Project.build Registry.packaged config.generator.maxDepth config.generator.strict tree
    options).mapError .project

def planWith (setting : Setting) (arguments : Arguments) (disk : Disk) (config : Config) :
    Except Obstacle Plan := do
  let tree ← treeOf disk arguments.tree
  let data ← dataOf setting arguments.toOptions config disk
  let options ← optionsOf config data
  let output ← outputOf config tree options
  return ⟨config, tree, output⟩

def plan (setting : Setting) (arguments : Arguments) (disk : Disk) : Except Obstacle Plan := do
  let config ← (configure setting.environment arguments.toOptions).mapError .settings
  planWith setting arguments disk config

/-! ### Following a plan -/

/-- Whether work comes to what is planned. Quiet work says nothing about an obstacle but its report, and
silent work says nothing otherwise. -/
def Follows {α : Type} (quiet silent : Prop) (console : Console) (work : Talk α)
    (planned : Except Obstacle α) : Prop :=
  ∃ text, Says work (planned.mapError Obstacle.ending) text ∧
    (quiet → match planned with
      | .ok _ => silent → text = ""
      | .error obstacle => text = obstacle.text console)

section Following

variable {α β : Type} {work : Talk α} {further : α → Talk β} {first : Except Obstacle α}
variable {next : α → Except Obstacle β} {quiet silent : Prop} {console : Console} {obstacle : Obstacle}

theorem follows_bind (one : Follows quiet True console work first)
    (two : ∀ value, first = .ok value → Follows quiet silent console (further value) (next value)) :
    Follows quiet silent console (work >>= further) (first >>= next) := by
  obtain ⟨text, said, about⟩ := one
  cases first with
  | error obstacle => exact ⟨text, says_bind_of_error said, about⟩
  | ok value =>
      obtain ⟨more, saidMore, aboutMore⟩ := two value rfl
      refine ⟨text ++ more, says_bind said saidMore, ?_⟩
      intro isQuiet
      rw [about isQuiet trivial, String.empty_append]
      exact aboutMore isQuiet

theorem follows_of_ok {value : α} {text : String} (said : Says work (.ok value) text) :
    Follows quiet False console work (.ok value) :=
  ⟨text, said, fun _ => False.elim⟩

theorem exists_says_of_follows {value : α} (followed : Follows False silent console work first)
    (planned : first = .ok value) : ∃ text, Says work (.ok value) text := by
  obtain ⟨text, said, _⟩ := followed
  rw [planned] at said
  exact ⟨text, said⟩

theorem follows_pure {value : α} : Follows quiet silent console (pure value : Talk α) (.ok value) :=
  ⟨"", says_pure, fun _ _ => rfl⟩

theorem follows_refuse (obstacle : Obstacle) {message : String}
    (reported : obstacle.report = .ok ["Error: " ++ message]) :
    Follows quiet silent console (refuse console message : Talk α) (.error obstacle) := by
  have ending : obstacle.ending = .exit refusedStatus := by
    rw [Obstacle.ending, reported]
  have told : obstacle.text console = messageText console .error ("Error: " ++ message) := by
    simp [Obstacle.text, reported, messagesText]
  refine ⟨obstacle.text console, ?_, fun _ => rfl⟩
  rw [mapError_error, ending, told]
  exact says_refuse message

theorem follows_fail (obstacle : Obstacle) {cause : Failure} (left : obstacle.report = .error cause) :
    Follows quiet silent console (fail cause : Talk α) (.error obstacle) := by
  refine ⟨"", ?_, fun _ => by simp only [Obstacle.text, left]⟩
  rw [mapError_error, Obstacle.ending, left]
  exact says_throw

variable {setting : Setting} {config : Config} {disk : Disk}

theorem follows_load (path : String) :
    Follows quiet True console (load console disk path) (entriesOf disk path) := by
  rw [load, entriesOf]
  cases Document.load disk (Path.ofString path) with
  | ok entries => exact follows_pure
  | error cause =>
      cases told : complaint cause with
      | some message =>
          have reported : (Obstacle.document cause).report = .ok ["Error: " ++ message] := by
            simp only [Obstacle.report, told]
          simp only [told]
          exact follows_refuse _ reported
      | none =>
          have left : (Obstacle.document cause).report = .error (.document cause) := by
            simp only [Obstacle.report, told]
          simp only [told]
          exact follows_fail _ left

theorem follows_loadTree (path : String) :
    Follows quiet True console (loadTree console disk path) (treeOf disk path) := by
  apply follows_bind (follows_load path)
  intro entries _
  cases UITree.ofValue (.map entries) with
  | ok tree => exact follows_pure
  | error failure => exact follows_refuse (.tree failure) rfl

theorem follows_fetchData (loud : ¬ quiet) :
    Follows quiet True setting.console (fetchData setting config) (liveData setting.network config) := by
  have plain : Console.isPlain "  Fetching live provider data..." = true := rfl
  obtain ⟨chars, printed⟩ := Console.exists_printed_plain plain
  obtain ⟨announced, said⟩ : ∃ text, Says (say setting.console "  Fetching live provider data...") (.ok ())
      text := by
    rw [say, Console.print, bind_of_eq_ok printed]
    exact ⟨_, says_bind_quiet says_pure says_put⟩
  rw [fetchData, liveData]
  cases given : (Dashboard.build setting.network config.providers).data with
  | error cause =>
      simp only [given]
      exact ⟨_, says_bind said (says_bind (says_tellAll _) (says_bind_of_error says_throw)),
        fun isQuiet => absurd isQuiet loud⟩
  | ok data =>
      simp only [given]
      exact ⟨_, says_bind said (says_bind (says_tellAll _) (says_bind says_pure says_pure)),
        fun isQuiet => absurd isQuiet loud⟩

theorem follows_readData {options : Options} (quietly : quiet → options.live = false) :
    Follows quiet True setting.console (readData setting options config disk)
      (dataOf setting options config disk) := by
  rw [readData, dataOf]
  by_cases live : options.live = true
  · rw [if_pos live, if_pos live]
    apply follows_fetchData
    intro isQuiet
    simp [quietly isQuiet] at live
  · rw [if_neg live, if_neg live]
    cases options.data with
    | none => exact follows_pure
    | some path => exact follows_load path

theorem follows_orFail {ε : Type} {wrap : ε → Failure} {given : Except ε α} {toObstacle : ε → Obstacle}
    (left : ∀ cause, (toObstacle cause).report = .error (wrap cause)) :
    Follows quiet silent console (orFail wrap given) (given.mapError toObstacle) := by
  cases given with
  | error cause => exact follows_fail _ (left cause)
  | ok value => exact follows_pure

variable {tree : UITree} {data : List (Value × Value)}

theorem follows_defective (defects : List Defect) :
    Follows quiet silent console (do
        tellAll console .error (defects.map fun defect => defectLine defect.diagnostic)
        refuse console (Project.defectSummary defects) : Talk α)
      (.error (.project (.defective defects))) := by
  refine ⟨_, says_bind (says_tellAll _) (says_refuse _), fun _ => ?_⟩
  simp [Obstacle.text, Obstacle.report, messagesText]

theorem follows_build :
    Follows quiet True console (build console config tree data) (do
      let options ← optionsOf config data
      let output ← outputOf config tree options
      return output.result) := by
  apply follows_bind (follows_orFail fun _ => rfl)
  intro options _
  rw [outputOf]
  cases Project.build Registry.packaged config.generator.maxDepth config.generator.strict tree options with
  | ok output => exact follows_pure
  | error error =>
      cases error with
      | unwritable cause => exact follows_fail (.project (.unwritable cause)) rfl
      | defective defects =>
          exact follows_defective defects

theorem exists_says_report (console : Console) (config : Config) (tree : UITree) (result : GenerationResult) :
    ∃ text, Says (report console config tree result) (.ok ()) text := by
  have plain : Console.isPlain summaryTitle = true := rfl
  obtain ⟨text, summarised⟩ : ∃ text, console.summary [
      (Value.text "Project", Value.text config.projectName),
      (.text "Reachable elements", .text (toString tree.reachableKeys.length)),
      (.text "Files", .text (toString result.files.length)),
      (.text "Diagnostics", .text (toString result.diagnostics.length))] summaryTitle = .ok text :=
    Console.exists_summary (by simp) (Console.exists_printed_plain plain)
  rw [report, summarised]
  exact ⟨_, says_bind says_pure (says_bind says_put (says_tellAll _))⟩

theorem prepared_planWith {arguments : Arguments} :
    Plan.prepared <$> planWith setting arguments disk config = (do
      let tree ← treeOf disk arguments.tree
      let data ← dataOf setting arguments.toOptions config disk
      let result ← (do
        let options ← optionsOf config data
        let output ← outputOf config tree options
        return output.result)
      return ⟨config.projectPath, result⟩) := by
  simp only [planWith, map_bind, map_pure, bind_assoc, pure_bind]
  rfl

/-- A run prepares what is planned. Without live data an obstacle leaves its report and nothing else. -/
theorem follows_prepare (setting : Setting) (arguments : Arguments) (disk : Disk) :
    Follows (arguments.live = false) False setting.console (prepare setting arguments disk)
      (Plan.prepared <$> plan setting arguments disk) := by
  rw [prepare, plan]
  cases configure setting.environment arguments.toOptions with
  | error cause => exact follows_refuse (.settings cause) rfl
  | ok config =>
      show Follows _ False setting.console _ (Plan.prepared <$> planWith setting arguments disk config)
      rw [prepared_planWith]
      apply follows_bind (follows_loadTree _)
      intro tree _
      apply follows_bind (follows_readData id)
      intro data _
      apply follows_bind follows_build
      intro result _
      obtain ⟨text, reported⟩ := exists_says_report setting.console config tree result
      exact follows_of_ok (says_bind reported says_pure)

end Following

/-! ### Runs -/

section Runs

variable {setting : Setting} {arguments : Arguments} {disk : Disk} {obstacle : Obstacle} {ready : Plan}
variable {console : Console} {prepared : Prepared} {printed : String}

theorem run_of_obstacle (blocked : plan setting arguments disk = .error obstacle) :
    ∃ text, run setting arguments disk = ⟨obstacle.ending, text, "", disk⟩ ∧
      (arguments.live = false → text = obstacle.text setting.console) := by
  obtain ⟨text, said, about⟩ := follows_prepare setting arguments disk
  rw [blocked] at said about
  refine ⟨text, ?_, about⟩
  rw [run, said "", String.empty_append]
  rfl

theorem exists_says_prepare (planned : plan setting arguments disk = .ok ready) :
    ∃ lead summary,
      Says (report setting.console ready.config ready.tree ready.output.result) (.ok ()) summary ∧
      Says (prepare setting arguments disk) (.ok ready.prepared) (lead ++ summary) := by
  obtain ⟨config, settings, planned⟩ := exists_of_bind_eq_ok planned
  obtain ⟨tree, read, planned⟩ := exists_of_bind_eq_ok planned
  obtain ⟨data, given, planned⟩ := exists_of_bind_eq_ok planned
  obtain ⟨options, accepted, planned⟩ := exists_of_bind_eq_ok planned
  obtain ⟨output, built, planned⟩ := exists_of_bind_eq_ok planned
  obtain rfl : (⟨config, tree, output⟩ : Plan) = ready := Except.ok.inj planned
  have made : (do
      let options ← optionsOf config data
      let output ← outputOf config tree options
      return output.result : Except Obstacle GenerationResult) = .ok output.result := by
    rw [bind_of_eq_ok accepted, bind_of_eq_ok built]
    rfl
  -- Each stage goes as it is planned, so each says something before the report and goes on.
  obtain ⟨one, saidOne⟩ : ∃ text, Says (loadTree setting.console disk arguments.tree) (.ok tree) text :=
    exists_says_of_follows (follows_loadTree _) read
  obtain ⟨two, saidTwo⟩ : ∃ text, Says (readData setting arguments.toOptions config disk) (.ok data) text :=
    exists_says_of_follows (follows_readData False.elim) given
  obtain ⟨three, saidThree⟩ : ∃ text, Says (build setting.console config tree data) (.ok output.result) text :=
    exists_says_of_follows follows_build made
  obtain ⟨summary, reported⟩ := exists_says_report setting.console config tree output.result
  refine ⟨one ++ (two ++ three), summary, reported, ?_⟩
  have ended : Says (do
      report setting.console config tree output.result
      return (⟨config.projectPath, output.result⟩ : Prepared)) (.ok ⟨config.projectPath, output.result⟩)
      (summary ++ "") := says_bind reported says_pure
  rw [String.append_empty] at ended
  rw [prepare, mapError_eq_ok settings, String.append_assoc, String.append_assoc]
  exact says_bind saidOne (says_bind saidTwo (says_bind saidThree ended))

theorem run_of_prepared (said : Says (prepare setting arguments disk) (.ok prepared) printed) :
    run setting arguments disk =
      if arguments.dryRun then settle (list setting.console prepared) printed disk
      else write setting.console prepared printed disk := by
  rw [run, said "", String.empty_append]

def pathLine (console : Console) (path : String) : String :=
  (console.print ("  " ++ Console.escape path)).toOption.getD ""

def listing (console : Console) (paths : List String) : String :=
  String.join (paths.map (pathLine console))

theorem says_list (console : Console) (prepared : Prepared) :
    Says (list console prepared) (.ok ()) (listing console prepared.result.paths) := by
  have plain : Console.isPlain "  " = true := rfl
  rw [list]
  induction prepared.result.paths with
  | nil => exact says_pure
  | cons path paths ih =>
      obtain ⟨shown, printed⟩ := Console.exists_print_escape plain console path
      have line : pathLine console path = shown := by
        rw [pathLine, printed]
        rfl
      show Says (say console ("  " ++ Console.escape path) >>= fun _ => _) _ _
      rw [listing, List.map_cons, String.join_cons, line, say, printed]
      exact says_bind (says_bind_quiet says_pure says_put) ih

theorem run_dry (planned : plan setting arguments disk = .ok ready) (dry : arguments.dryRun = true) :
    ∃ printed, run setting arguments disk = ⟨.exit 0, printed, "", disk⟩ := by
  obtain ⟨lead, summary, _, prepared⟩ := exists_says_prepare planned
  exact ⟨_, by rw [run_of_prepared prepared, if_pos dry, settle, says_list]⟩

theorem run_wet (planned : plan setting arguments disk = .ok ready) (wet : arguments.dryRun = false) :
    ∃ printed, run setting arguments disk = write setting.console ready.prepared printed disk := by
  obtain ⟨lead, summary, _, prepared⟩ := exists_says_prepare planned
  exact ⟨_, by rw [run_of_prepared prepared, if_neg (Bool.eq_false_iff.mp wet)]⟩

def successText (console : Console) (count : Nat) (directory : Path) : String :=
  messageText console .success s!"Wrote {count} files to {directory}"

theorem write_eq (console : Console) (prepared : Prepared) (printed : String) (disk : Disk) :
    write console prepared printed disk =
    match (Project.writeFiles prepared.directory prepared.result.files).run disk with
    | (.error cause, disk) => ⟨.failure (.disk cause), printed, "", disk⟩
    | (.ok paths, disk) =>
      ⟨.exit 0, printed ++ successText console paths.length prepared.directory, "", disk⟩ := by
  rw [write]
  cases written : (Project.writeFiles prepared.directory prepared.result.files).run disk with
  | mk result disk =>
      cases result with
      | error cause => rfl
      | ok paths =>
          simp only [settle, says_tell _ printed]
          rfl

end Runs

end Command

end TreeExport
