import TreeExport.Proofs.Command.Plan
import TreeExport.Proofs.Disk.Writing
import TreeExport.Proofs.Project.Paths

/-!
What a run does to the disk. Everything that can stop a run comes before the first write, so a run that is
stopped changes nothing; a run that succeeds puts each file of its project where its path leads, and leaves
all other files as they were.
-/

namespace TreeExport

namespace Project

open Disk

variable {disk later : Disk} {directory : Path} {files : List GeneratedFile}

section Apart

variable (inside : ∀ file ∈ files, (Path.ofString file.path).root = .none ∧ ".." ∉ namesOf file)
variable (distinct : (files.map namesOf).Nodup)

include inside distinct

/-- Files below one directory are in different places if their names differ. -/
theorem eq_of_locate {file other : GeneratedFile} {place : Place} (member : file ∈ files)
    (otherMember : other ∈ files) (located : later.locate (target directory file) = .ok place)
    (otherLocated : later.locate (target directory other) = .ok place) : other = file := by
  obtain ⟨relative, below⟩ := inside file member
  obtain ⟨otherRelative, otherBelow⟩ := inside other otherMember
  obtain ⟨above, base, rfl⟩ := exists_of_locate_join relative below located
  obtain ⟨otherAbove, otherBase, same⟩ := exists_of_locate_join otherRelative otherBelow otherLocated
  obtain rfl : above = otherAbove := Except.ok.inj (base.symm.trans otherBase)
  have names : namesOf file = namesOf other := List.append_cancel_left same
  exact (List.inj_on_of_nodup_map distinct otherMember member names.symm)

theorem read_written (written : Written directory files disk later) {file : GeneratedFile}
    (member : file ∈ files) :
    later.read (target directory file) = .ok file.content.toUTF8 := by
  obtain ⟨place, located⟩ := written.lands file member
  refine read_of_fileAt? located ?_
  rw [written.holds]
  cases found : lastAt? later directory files place with
  | none => exact absurd located (lastAt?_eq_none_iff.mp found file member)
  | some other =>
      obtain ⟨otherMember, otherLocated⟩ := lastAt?_spec found
      rw [eq_of_locate inside distinct member otherMember located otherLocated]
      rfl

end Apart

theorem fileAt?_of_unled (written : Written directory files disk later) {place : Place}
    (unled : ∀ file ∈ files, later.locate (target directory file) ≠ .ok place) :
    later.fileAt? place = disk.fileAt? place := by
  rw [written.holds, lastAt?_eq_none_iff.mpr unled]
  rfl

end Project

namespace Command

variable {setting : Setting} {arguments : Arguments} {words : List String} {disk later : Disk}

theorem plan_eq_ok {ready : Plan} (planned : plan setting arguments disk = .ok ready) :
    ∃ options, Project.build Registry.packaged ready.config.generator.maxDepth
      ready.config.generator.strict ready.tree options = .ok ready.output := by
  obtain ⟨config, _, planned⟩ := exists_of_bind_eq_ok planned
  obtain ⟨tree, _, planned⟩ := exists_of_bind_eq_ok planned
  obtain ⟨data, _, planned⟩ := exists_of_bind_eq_ok planned
  obtain ⟨options, _, planned⟩ := exists_of_bind_eq_ok planned
  obtain ⟨output, built, planned⟩ := exists_of_bind_eq_ok planned
  obtain rfl : (⟨config, tree, output⟩ : Plan) = ready := Except.ok.inj planned
  exact ⟨options, mapError_eq_ok built⟩

/-- What a disk is after a project was exported: its files can be read below its directory, and all other
files and the directories are as they were, but for further directories. -/
structure Exported (ready : Plan) (disk later : Disk) : Prop where
  files : ∀ file ∈ ready.output.files,
    later.read (ready.config.projectPath.join (Path.ofString file.path)) = .ok file.content.toUTF8
  others : ∀ place, (∀ file ∈ ready.output.files,
      later.locate (ready.config.projectPath.join (Path.ofString file.path)) ≠ .ok place) →
    later.fileAt? place = disk.fileAt? place
  directories : disk.Grows later

theorem exported_of_written {ready : Plan} (planned : plan setting arguments disk = .ok ready)
    (written : Project.Written ready.config.projectPath ready.output.files disk later) :
    Exported ready disk later := by
  obtain ⟨options, built⟩ := plan_eq_ok planned
  have output := Project.outputOf_of_build built
  exact {
    files := fun file member => Project.read_written (fun file => Project.inside_project output)
      (Project.nodup_names output) written member
    others := fun place unled => Project.fileAt?_of_unled written unled
    directories := written.grows }

theorem run_writes {ready : Plan} (planned : plan setting arguments disk = .ok ready)
    (wet : arguments.dryRun = false) :
    (∃ cause, (run setting arguments disk).ending = .failure (.disk cause)) ∨
    (run setting arguments disk).ending = .exit 0 ∧
      Exported ready disk (run setting arguments disk).disk := by
  obtain ⟨printed, ran⟩ := run_wet planned wet
  rw [ran, write_eq]
  rcases Project.writeFiles_run ready.prepared.directory ready.prepared.result.files disk with
    ⟨_, _, _, _, error, later, _, failed, _, _⟩ | ⟨later, ran, written⟩
  · rw [failed]
    exact Or.inl ⟨error, rfl⟩
  · rw [ran]
    exact Or.inr ⟨rfl, exported_of_written planned written⟩

/-- What becomes of the disk in a run: nothing, or its files are written; only a wet run that has planned its
project gets as far as that. -/
theorem run_cases (setting : Setting) (arguments : Arguments) (disk : Disk) :
    (run setting arguments disk).disk = disk ∧
      ((run setting arguments disk).ending = .exit 0 → arguments.dryRun = true) ∨
    ∃ ready, plan setting arguments disk = .ok ready ∧ arguments.dryRun = false ∧
      ((∃ cause, (run setting arguments disk).ending = .failure (.disk cause)) ∨
        (run setting arguments disk).ending = .exit 0 ∧
          Exported ready disk (run setting arguments disk).disk) := by
  cases planned : plan setting arguments disk with
  | error obstacle =>
      obtain ⟨text, ran, _⟩ := run_of_obstacle planned
      rw [ran]
      refine Or.inl ⟨rfl, ?_⟩
      intro ended
      exact absurd ended obstacle.ending_ne_zero
  | ok ready =>
      by_cases dry : arguments.dryRun = true
      · obtain ⟨printed, ran⟩ := run_dry planned dry
        rw [ran]
        exact Or.inl ⟨rfl, fun _ => dry⟩
      · have wet := Bool.eq_false_iff.mpr dry
        exact Or.inr ⟨ready, rfl, wet, run_writes planned wet⟩

/-- A command that is refused or stopped changes nothing on the disk, nor does a dry run or a command that asks for
help, whatever else it says; only a failure to write may leave some files behind. A command that succeeds leaves exactly the files of the project that it
built, and changes no other file. -/
theorem invoke_frame (setting : Setting) (words : List String) (disk : Disk) :
    let outcome := invoke setting words disk
    (∀ status, outcome.ending = .exit status → status ≠ 0 → outcome.disk = disk) ∧
    (∀ arguments, parse words = .ok (.generate arguments) → arguments.dryRun = true →
      outcome.disk = disk) ∧
    (parse words = .ok .help → outcome.ending = .exit 0 ∧ outcome.disk = disk) ∧
    (∀ left, outcome.ending = .failure left → outcome.disk = disk ∨
      ∃ arguments ready cause, parse words = .ok (.generate arguments) ∧ arguments.dryRun = false ∧
        plan setting arguments disk = .ok ready ∧ left = .disk cause) ∧
    ∀ arguments, parse words = .ok (.generate arguments) → arguments.dryRun = false →
      outcome.ending = .exit 0 → ∃ ready options, plan setting arguments disk = .ok ready ∧
        Project.build Registry.packaged ready.config.generator.maxDepth ready.config.generator.strict
          ready.tree options = .ok ready.output ∧
        Exported ready disk outcome.disk := by
  intro outcome
  cases parsed : parse words with
  | error cause =>
      have refused : outcome = ⟨.exit usageStatus, "", refusal cause, disk⟩ := by
        simp only [outcome, invoke, parsed]
      rw [refused]
      exact ⟨fun _ _ _ => rfl, fun _ _ _ => rfl, nofun, fun _ _ => Or.inl rfl, nofun⟩
  | ok invocation =>
      cases invocation with
      | help =>
          have helped : outcome = ⟨.exit 0, help, "", disk⟩ := by
            simp only [outcome, invoke, parsed]
          rw [helped]
          exact ⟨fun _ _ _ => rfl, fun _ _ _ => rfl, fun _ => ⟨rfl, rfl⟩, fun _ _ => Or.inl rfl, nofun⟩
      | generate arguments =>
          have ran : outcome = run setting arguments disk := by
            simp only [outcome, invoke, parsed]
          rw [ran]
          simp only [Except.ok.injEq, Invocation.generate.injEq, forall_eq']
          rcases run_cases setting arguments disk with ⟨unchanged, dry⟩ |
            ⟨ready, planned, wet, ⟨cause, failed⟩ | ⟨well, exported⟩⟩
          · -- A run that did not write and still ended with 0 was a dry one.
            refine ⟨fun _ _ _ => unchanged, fun _ => unchanged, nofun, fun _ _ => Or.inl unchanged, ?_⟩
            intro wet ended
            rw [dry ended] at wet
            exact absurd wet nofun
          · rw [failed, wet]
            refine ⟨nofun, nofun, nofun, ?_, nofun⟩
            intro left same
            exact Or.inr ⟨arguments, ready, cause, rfl, wet, planned, (Ending.failure.inj same).symm⟩
          · rw [well, wet]
            refine ⟨?_, fun dry => absurd dry Bool.false_ne_true, nofun,
              fun _ same => Ending.noConfusion same, ?_⟩
            · intro status same nonzero
              exact absurd (Ending.exit.inj same).symm nonzero
            · intro _ _
              obtain ⟨options, built⟩ := plan_eq_ok planned
              exact ⟨ready, options, planned, built, exported⟩

end Command

end TreeExport
