import TreeExport.Proofs.Command.Plan
import TreeExport.Proofs.Project.Totality
import TreeExport.Proofs.Schema.Checked

/-!
Which obstacles a run reports, and which ones escape it. Without live data every run ends with a status
unless reading a document fails in a way that is not looked for, the data have a key that is no text, or
some value has no literal.
-/

namespace TreeExport

/-- The faults of a scalar with a tag that readers of YAML do not report as faults of a value. -/
def Yaml.Error.IsUnguarded : Yaml.Error → Prop
  | .unknownBoolean _ => True
  | .emptyNumber => True
  | .largeNumber => True
  | .noTimestamp => True
  | .timestampOfCollection => True
  | .hugeCodePoint => True
  | _ => False

/-- The faults of a document other than a missing file, a path that is none, and a text that is wrong: a
directory in its place, a path that leads through a file or has too long a name, and some faults of YAML. -/
def Document.Error.IsUnguarded : Document.Error → Prop
  | .unreadable (.disk cause) => cause.fault ≠ .missing ∧ cause.fault ≠ .zeroCharacter
  | .yaml _ cause => cause.IsUnguarded
  | _ => False

namespace Command

theorem complaint_eq_none_iff {cause : Document.Error} : complaint cause = none ↔ cause.IsUnguarded := by
  cases cause with
  | unreadable cause =>
      cases cause with
      | disk cause =>
          obtain ⟨fault, path⟩ := cause
          cases fault <;> simp [complaint, Document.Error.IsUnguarded]
      | encoding cause => simp [complaint, Document.Error.IsUnguarded]
  | json cause => simp [complaint, Document.Error.IsUnguarded]
  | yaml path cause =>
      cases cause <;>
        simp [complaint, yamlComplaint, Document.Error.IsUnguarded, Yaml.Error.IsUnguarded]
  | notMapping path kind => simp [complaint, Document.Error.IsUnguarded]

theorem exists_optionsOf_iff (config : Config) {data : List (Value × Value)} :
    (∃ options, optionsOf config data = .ok options) ↔ ∀ entry ∈ data, Schema.HasText entry.1 := by
  have fields : GeneratorOptions.check (.map [(.text "project_name", .text config.projectName),
      (.text "data", .map data)]) = GeneratorOptions.mk
        <$> (Schema.text (.text config.projectName)).within (.name "project_name")
        <*> (Schema.mapOf .value Schema.Checked.valid (.map data)).within (.name "data") := rfl
  have named : Schema.HasText (.text config.projectName) := ⟨_, rfl⟩
  have valid (entry : Value × Value) : (Schema.Checked.valid entry.2).IsValid :=
    Schema.Checked.isValid_valid _
  have all : (∃ options, GeneratorOptions.ofEntries [(.text "project_name", .text config.projectName),
      (.text "data", .map data)] = .ok options) ↔ ∀ entry ∈ data, Schema.HasText entry.1 := by
    show (∃ options, (GeneratorOptions.check (.map _)).named _ = .ok options) ↔ _
    rw [Schema.Checked.exists_named_eq_ok]
    show (GeneratorOptions.check (.map [(.text "project_name", .text config.projectName),
      (.text "data", .map data)])).IsValid ↔ _
    rw [fields]
    simp only [Schema.Checked.isValid_seq, Schema.Checked.isValid_map, Schema.Checked.isValid_within,
      Schema.isValid_text, Schema.isValid_mapOf, named, valid, true_and, and_true]
  rw [← all, optionsOf]
  cases GeneratorOptions.ofEntries [(.text "project_name", .text config.projectName),
      (.text "data", .map data)] <;> simp

/-- The inputs of a run without live data that keep it from ending with a status. -/
inductive Escapes (setting : Setting) (arguments : Arguments) (disk : Disk) : Prop
  | tree {config : Config} {cause : Document.Error} :
      configure setting.environment arguments.toOptions = .ok config →
      Document.load disk (Path.ofString arguments.tree) = .error cause → cause.IsUnguarded →
      Escapes setting arguments disk
  | data {config : Config} {tree : UITree} {path : String} {cause : Document.Error} :
      configure setting.environment arguments.toOptions = .ok config →
      treeOf disk arguments.tree = .ok tree → arguments.data = some path →
      Document.load disk (Path.ofString path) = .error cause → cause.IsUnguarded →
      Escapes setting arguments disk
  | names {config : Config} {tree : UITree} {data : List (Value × Value)} :
      configure setting.environment arguments.toOptions = .ok config →
      treeOf disk arguments.tree = .ok tree →
      dataOf setting arguments.toOptions config disk = .ok data →
      (∃ entry ∈ data, ¬ Schema.HasText entry.1) →
      Escapes setting arguments disk
  | literals {config : Config} {tree : UITree} {data : List (Value × Value)}
      {options : GeneratorOptions} :
      configure setting.environment arguments.toOptions = .ok config →
      treeOf disk arguments.tree = .ok tree →
      dataOf setting arguments.toOptions config disk = .ok data →
      optionsOf config data = .ok options →
      ¬ Project.Literals config.generator.maxDepth tree options Value.Writable →
      Escapes setting arguments disk

variable {setting : Setting} {arguments : Arguments} {disk : Disk} {obstacle : Obstacle}

theorem plan_eq_error_iff : plan setting arguments disk = .error obstacle ↔
    (∃ cause, configure setting.environment arguments.toOptions = .error cause ∧
      .settings cause = obstacle) ∨
    ∃ config, configure setting.environment arguments.toOptions = .ok config ∧
      planWith setting arguments disk config = .error obstacle := by
  rw [plan, bind_eq_error_iff, mapError_eq_error_iff]
  constructor
  · rintro (failed | ⟨config, read, failed⟩)
    · exact Or.inl failed
    · exact Or.inr ⟨config, mapError_eq_ok read, failed⟩
  · rintro (failed | ⟨config, read, failed⟩)
    · exact Or.inl failed
    · exact Or.inr ⟨config, by rw [read]; rfl, failed⟩

theorem planWith_eq_error_iff {config : Config} :
    planWith setting arguments disk config = .error obstacle ↔
      treeOf disk arguments.tree = .error obstacle ∨
      ∃ tree, treeOf disk arguments.tree = .ok tree ∧
        (dataOf setting arguments.toOptions config disk = .error obstacle ∨
        ∃ data, dataOf setting arguments.toOptions config disk = .ok data ∧
          (optionsOf config data = .error obstacle ∨
          ∃ options, optionsOf config data = .ok options ∧
            outputOf config tree options = .error obstacle)) := by
  simp only [planWith, bind_eq_error_iff]
  simp [pure, Except.pure]

theorem plan_of_unreadable_tree {config : Config} {cause : Document.Error}
    (settings : configure setting.environment arguments.toOptions = .ok config)
    (failed : Document.load disk (Path.ofString arguments.tree) = .error cause) :
    plan setting arguments disk = .error (.document cause) := by
  have blocked : treeOf disk arguments.tree = .error (.document cause) := by
    rw [treeOf, entriesOf, failed]
    rfl
  exact plan_eq_error_iff.mpr (Or.inr ⟨config, settings, planWith_eq_error_iff.mpr (Or.inl blocked)⟩)

theorem report_document_iff {cause : Document.Error} {left : Failure} :
    (Obstacle.document cause).report = .error left ↔ cause.IsUnguarded ∧ .document cause = left := by
  rw [← complaint_eq_none_iff, Obstacle.report]
  cases complaint cause <;> simp

theorem escapes_of_tree {config : Config} {left : Failure}
    (settings : configure setting.environment arguments.toOptions = .ok config)
    (blocked : treeOf disk arguments.tree = .error obstacle) (reported : obstacle.report = .error left) :
    Escapes setting arguments disk := by
  rw [treeOf, entriesOf, bind_eq_error_iff, mapError_eq_error_iff] at blocked
  rcases blocked with ⟨cause, failed, rfl⟩ | ⟨entries, _, invalid⟩
  · exact .tree settings failed (report_document_iff.mp reported).1
  · obtain ⟨failure, _, rfl⟩ := mapError_eq_error_iff.mp invalid
    cases reported

theorem escapes_of_data {config : Config} {tree : UITree} {left : Failure}
    (offline : arguments.live = false)
    (settings : configure setting.environment arguments.toOptions = .ok config)
    (read : treeOf disk arguments.tree = .ok tree)
    (blocked : dataOf setting arguments.toOptions config disk = .error obstacle)
    (reported : obstacle.report = .error left) : Escapes setting arguments disk := by
  rw [dataOf, if_neg (by simp [offline])] at blocked
  cases given : arguments.data with
  | none =>
      rw [given] at blocked
      cases blocked
  | some path =>
      rw [given] at blocked
      obtain ⟨cause, failed, rfl⟩ := mapError_eq_error_iff.mp blocked
      exact .data settings read given failed (report_document_iff.mp reported).1

theorem escapes_of_output {config : Config} {tree : UITree} {data : List (Value × Value)}
    {options : GeneratorOptions} {left : Failure}
    (settings : configure setting.environment arguments.toOptions = .ok config)
    (read : treeOf disk arguments.tree = .ok tree)
    (given : dataOf setting arguments.toOptions config disk = .ok data)
    (accepted : optionsOf config data = .ok options)
    (blocked : outputOf config tree options = .error obstacle)
    (reported : obstacle.report = .error left) : Escapes setting arguments disk := by
  obtain ⟨cause, failed, rfl⟩ := mapError_eq_error_iff.mp blocked
  cases cause with
  | unwritable cause =>
      exact .literals settings read given accepted ((Project.exists_unwritable_iff _ _).mp ⟨cause, failed⟩)
  | defective defects => cases reported

theorem escapes_iff (offline : arguments.live = false) : Escapes setting arguments disk ↔
    ∃ obstacle left, plan setting arguments disk = .error obstacle ∧ obstacle.report = .error left := by
  have stopped {config : Config} {obstacle : Obstacle}
      (settings : configure setting.environment arguments.toOptions = .ok config) (stages : _) :
      plan setting arguments disk = .error obstacle :=
    plan_eq_error_iff.mpr (Or.inr ⟨config, settings, planWith_eq_error_iff.mpr stages⟩)
  constructor
  · rintro (⟨settings, failed, unguarded⟩ | ⟨settings, read, given, failed, unguarded⟩ |
      ⟨settings, read, given, entry, member, noText⟩ | ⟨settings, read, given, accepted, literals⟩)
    · exact ⟨_, _, plan_of_unreadable_tree settings failed, report_document_iff.mpr ⟨unguarded, rfl⟩⟩
    · rename_i config tree path cause
      have blocked : dataOf setting arguments.toOptions config disk = .error (.document cause) := by
        rw [dataOf, if_neg (by simp [offline]), given]
        simp only [entriesOf, failed]
        rfl
      exact ⟨_, _, stopped settings (Or.inr ⟨tree, read, Or.inl blocked⟩),
        report_document_iff.mpr ⟨unguarded, rfl⟩⟩
    · rename_i config tree data
      cases accepted : optionsOf config data with
      | ok options => exact absurd ((exists_optionsOf_iff config).mp ⟨options, accepted⟩ entry member) noText
      | error obstacle =>
          obtain ⟨failure, _, rfl⟩ := mapError_eq_error_iff.mp accepted
          exact ⟨_, _, stopped settings (Or.inr ⟨tree, read, Or.inr ⟨data, given,
            Or.inl accepted⟩⟩), rfl⟩
    · rename_i config tree data options
      obtain ⟨cause, failed⟩ := (Project.exists_unwritable_iff Registry.packaged
        config.generator.strict).mpr literals
      have blocked : outputOf config tree options = .error (.project (.unwritable cause)) := by
        rw [outputOf, failed]
        rfl
      exact ⟨_, _, stopped settings (Or.inr ⟨tree, read, Or.inr ⟨data, given,
        Or.inr ⟨options, accepted, blocked⟩⟩⟩), rfl⟩
  · rintro ⟨obstacle, left, blocked, reported⟩
    rcases plan_eq_error_iff.mp blocked with ⟨cause, _, rfl⟩ | ⟨config, settings, stopped⟩
    · cases reported
    · -- A stage stops the run only if those before it went well, which is what each way to escape asks for.
      rcases planWith_eq_error_iff.mp stopped with
        blocked | ⟨tree, read, blocked | ⟨data, given, blocked | ⟨options, accepted, blocked⟩⟩⟩
      · exact escapes_of_tree settings blocked reported
      · exact escapes_of_data offline settings read blocked reported
      · have refused : ¬ ∀ entry ∈ data, Schema.HasText entry.1 := by
          rw [← exists_optionsOf_iff config, blocked]
          rintro ⟨_, ⟨⟩⟩
        simp only [not_forall] at refused
        obtain ⟨entry, member, noText⟩ := refused
        exact .names settings read given ⟨entry, member, noText⟩
      · exact escapes_of_output settings read given accepted blocked reported

theorem report_ne_nil {messages : List String} (reported : obstacle.report = .ok messages) :
    messages ≠ [] := by
  cases obstacle with
  | settings cause => cases reported; exact List.cons_ne_nil _ _
  | document cause =>
      simp only [Obstacle.report] at reported
      split at reported
      · cases reported
        exact List.cons_ne_nil _ _
      · cases reported
  | tree failure => cases reported; exact List.cons_ne_nil _ _
  | project cause =>
      cases cause with
      | unwritable cause => cases reported
      | defective defects => cases reported; simp
  | feed cause => cases reported
  | options failure => cases reported

theorem report_ne_disk {cause : Disk.Error} : obstacle.report ≠ .error (.disk cause) := by
  cases obstacle with
  | settings cause => rintro ⟨⟩
  | document cause =>
      intro reported
      cases (report_document_iff.mp reported).2
  | feed cause => rintro ⟨⟩
  | tree failure => rintro ⟨⟩
  | options failure => rintro ⟨⟩
  | project cause => cases cause <;> rintro ⟨⟩

theorem report_of_ending {left : Failure} (ended : obstacle.ending = .failure left) :
    obstacle.report = .error left := by
  rw [Obstacle.ending] at ended
  cases reported : obstacle.report with
  | ok messages => simp [reported] at ended
  | error cause =>
      simp only [reported, Ending.failure.injEq] at ended
      rw [ended]

theorem ending_of_plan {ready : Plan} (planned : plan setting arguments disk = .ok ready) :
    (run setting arguments disk).ending = .exit 0 ∨ arguments.dryRun = false ∧
      ∃ cause, (run setting arguments disk).ending = .failure (.disk cause) := by
  by_cases dry : arguments.dryRun = true
  · obtain ⟨printed, ran⟩ := run_dry planned dry
    exact Or.inl (by rw [ran])
  · obtain ⟨printed, ran⟩ := run_wet planned (Bool.eq_false_iff.mpr dry)
    rw [ran, write_eq]
    split
    · exact Or.inr ⟨Bool.eq_false_iff.mpr dry, _, rfl⟩
    · exact Or.inl rfl

/-- Without live data a run ends with the status 0 or 1, or with a fault of the disk while it writes, unless
its inputs escape it. An obstacle that does not escape is reported: the messages about it are all that is
printed, the status is 1, and the disk is left as it was. Texts have no surrogates that stand alone, and the depth
of a document has no limit here; what else such inputs would come to is left out. -/
theorem run_settles (offline : arguments.live = false) :
    ((∃ left, (run setting arguments disk).ending = .failure left ∧ ∀ cause, left ≠ .disk cause) ↔
      Escapes setting arguments disk) ∧
    (∀ obstacle, plan setting arguments disk = .error obstacle → ¬ Escapes setting arguments disk →
      ∃ messages, messages ≠ [] ∧ obstacle.report = .ok messages ∧ run setting arguments disk =
        ⟨.exit 1, messagesText setting.console .error messages, "", disk⟩) ∧
    ∀ ready, plan setting arguments disk = .ok ready →
      (run setting arguments disk).ending = .exit 0 ∨ arguments.dryRun = false ∧
        ∃ cause, (run setting arguments disk).ending = .failure (.disk cause) := by
  refine ⟨⟨?_, ?_⟩, ?_, fun ready planned => ending_of_plan planned⟩
  · -- Once a run is planned only the disk can fail, so any other failure is an obstacle that is not reported.
    rintro ⟨left, ended, noDisk⟩
    cases planned : plan setting arguments disk with
    | error obstacle =>
        obtain ⟨text, ran, _⟩ := run_of_obstacle planned
        rw [ran] at ended
        exact (escapes_iff offline).mpr ⟨obstacle, left, planned, report_of_ending ended⟩
    | ok ready =>
        rcases ending_of_plan planned with well | ⟨_, cause, failed⟩
        · rw [well] at ended
          exact absurd ended nofun
        · rw [failed] at ended
          exact absurd (Ending.failure.inj ended).symm (noDisk cause)
  · intro escapes
    obtain ⟨obstacle, left, blocked, reported⟩ := (escapes_iff offline).mp escapes
    obtain ⟨text, ran, _⟩ := run_of_obstacle blocked
    refine ⟨left, by rw [ran, Obstacle.ending, reported], ?_⟩
    rintro cause rfl
    exact report_ne_disk reported
  · intro obstacle blocked settled
    cases reported : obstacle.report with
    | error left => exact absurd ((escapes_iff offline).mpr ⟨obstacle, left, blocked, reported⟩) settled
    | ok messages =>
        obtain ⟨text, ran, about⟩ := run_of_obstacle blocked
        refine ⟨messages, report_ne_nil reported, rfl, ?_⟩
        rw [ran, about offline, Obstacle.ending, Obstacle.text]
        simp only [reported]
        rfl

def bare : Setting := ⟨[], fun _ => .error ⟨.connection, ""⟩, ⟨80, .none⟩⟩

def reading (tree : String) : Arguments := { Options.unset with tree }

theorem configure_unset : configure [] Options.unset = .ok default := by
  simp only [configure, Config.ofEnvironment, Config.readSetting?, Config.setting?]
  decide +kernel

/-- A tree that is not there is reported. -/
theorem run_settles_of_missing_tree : (reading "a").live = false ∧
    run bare (reading "a") Disk.empty =
      ⟨.exit 1, messagesText ⟨80, .none⟩ .error ["Error: file not found: a"], "", Disk.empty⟩ := by
  have failed : Document.load Disk.empty (Path.ofString "a") =
      .error (.unreadable (.disk ⟨.missing, .ofString "a"⟩)) := rfl
  have blocked : plan bare (reading "a") Disk.empty = .error (.document _) :=
    plan_of_unreadable_tree configure_unset failed
  have settled : ¬ Escapes bare (reading "a") Disk.empty := by
    rw [escapes_iff rfl, blocked]
    rintro ⟨obstacle, left, same, reported⟩
    obtain rfl := Except.error.inj same
    cases reported
  obtain ⟨messages, _, reported, ran⟩ := (run_settles rfl).2.1 _ blocked settled
  obtain rfl : ["Error: file not found: a"] = messages := Except.ok.inj reported
  exact ⟨rfl, ran⟩

/-- A directory in the place of the tree ends a run without a report. -/
theorem run_fails_of_directory : (run bare (reading "d") ⟨[(["d"], .directory)]⟩).ending =
    .failure (.document (.unreadable (.disk ⟨.isDirectory, .ofString "d"⟩))) := by
  have failed : Document.load ⟨[(["d"], .directory)]⟩ (Path.ofString "d") =
      .error (.unreadable (.disk ⟨.isDirectory, .ofString "d"⟩)) := rfl
  have blocked : plan bare (reading "d") ⟨[(["d"], .directory)]⟩ = .error (.document _) :=
    plan_of_unreadable_tree configure_unset failed
  obtain ⟨text, ran, _⟩ := run_of_obstacle blocked
  rw [ran]
  rfl

end Command

end TreeExport
