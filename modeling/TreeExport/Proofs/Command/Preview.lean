import TreeExport.Proofs.Command.Frame
import TreeExport.Proofs.Command.Reporting
import TreeExport.Proofs.Console.Fitting

/-!
What a dry run tells about the real one. Both prepare the same export, so they end in the same way and print
the same report unless a write fails; the paths that the one lists are those that the other writes.
-/

namespace TreeExport

namespace Project

theorem isSimple_packagedPaths : ∀ path ∈ packagedPaths, Console.isSimple ("  " ++ path) := by
  have simple : ∀ names ∈ packagedNames, ∀ name ∈ names, Console.isSimple name := by decide +kernel
  have marks : Console.isSimple "  " ∧ Console.isSimple "/" := by decide
  intro path member
  rw [packagedPaths_eq] at member
  obtain ⟨names, listed, rfl⟩ := List.mem_map.mp member
  rw [Console.isSimple_iff]
  intro c inside
  rw [String.toList_append, String.toList_intercalate, List.mem_append] at inside
  rcases inside with space | joined
  · exact Console.isSimple_iff.mp marks.1 c space
  · rcases Text.mem_of_mem_intercalate joined with slash | ⟨piece, here, within⟩
    · exact Console.isSimple_iff.mp marks.2 c slash
    · obtain ⟨name, member, rfl⟩ := List.mem_map.mp here
      exact Console.isSimple_iff.mp (simple names listed name member) c within

end Project

namespace Command

variable {setting : Setting} {arguments : Arguments} {disk : Disk} {ready : Plan}

theorem pathLine_of_plan (planned : plan setting arguments disk = .ok ready) {path : String}
    (member : path ∈ ready.output.result.paths) {console : Console} (wide : path.length + 2 ≤ console.width) :
    pathLine console path = "  " ++ path ++ "\n" := by
  obtain ⟨options, built⟩ := plan_eq_ok planned
  have packaged := (Project.subperm_packagedPaths (Project.outputOf_of_build built)).subset member
  have simple := Project.isSimple_packagedPaths path packaged
  have inner : Console.isSimple path := by
    rw [Console.isSimple_iff] at simple ⊢
    intro c inside
    exact simple c (by rw [String.toList_append]; exact List.mem_append_right _ inside)
  have fits : ("  " ++ path).length ≤ console.width := by
    rw [String.length_append, Nat.add_comm]
    exact wide
  rw [pathLine, Console.escape_of_isSimple inner, Console.print_of_isSimple simple fits]
  rfl

/-- What a dry run and the real one have in common: the report of one plan, and the paths below its directory,
which the one lists and the other writes. -/
structure Previewed (setting : Setting) (ready : Plan) (disk : Disk) (dry wet : Outcome) : Prop where
  printed : ∃ lead summary,
    Says (report setting.console ready.config ready.tree ready.output.result) (.ok ()) summary ∧
    dry.printed = lead ++ summary ++ listing setting.console ready.output.result.paths ∧
    wet.printed = lead ++ summary ++
      successText setting.console ready.output.result.paths.length ready.config.projectPath
  listed : ∀ path ∈ ready.output.result.paths, path.length + 2 ≤ setting.console.width →
    pathLine setting.console path = "  " ++ path ++ "\n"
  written : (Project.writeFiles ready.config.projectPath ready.output.files).run disk =
    (.ok (ready.output.result.paths.map fun path => ready.config.projectPath.join (Path.ofString path)),
      wet.disk)
  exported : Exported ready disk wet.disk

/-- A dry run changes nothing, and ends as the real one does unless that one fails to write. If they end well,
the dry run lists what the real one writes; if not, they do the same. -/
theorem run_previews (setting : Setting) (arguments : Arguments) (disk : Disk)
    (written : ∀ cause,
      (run setting { arguments with dryRun := false } disk).ending ≠ .failure (.disk cause)) :
    let dry := run setting { arguments with dryRun := true } disk
    let wet := run setting { arguments with dryRun := false } disk
    dry.ending = wet.ending ∧ dry.disk = disk ∧ (dry.ending ≠ .exit 0 → wet = dry) ∧
    (dry.ending = .exit 0 →
      ∃ ready, plan setting arguments disk = .ok ready ∧ Previewed setting ready disk dry wet) := by
  intro dry wet
  cases planned : plan setting arguments disk with
  | error obstacle =>
      -- Planning does not look at the flag, and what stops it is told before the flag counts.
      obtain ⟨text, said, _⟩ := follows_prepare setting arguments disk
      rw [planned] at said
      have stopped : ∀ flag, run setting { arguments with dryRun := flag } disk =
          ⟨obstacle.ending, text, "", disk⟩ := by
        intro flag
        have prepared : (prepare setting { arguments with dryRun := flag } disk).run "" =
            (.error obstacle.ending, "" ++ text) := said ""
        rw [run, prepared, String.empty_append]
      have same : wet = dry := (stopped false).trans (stopped true).symm
      refine ⟨by rw [same], by rw [show dry = _ from stopped true], fun _ => same, ?_⟩
      intro ended
      rw [show dry = _ from stopped true] at ended
      exact absurd ended obstacle.ending_ne_zero
  | ok ready =>
      obtain ⟨lead, summary, reported, prepared⟩ := exists_says_prepare planned
      have preparedWith : ∀ flag, Says (prepare setting { arguments with dryRun := flag } disk)
          (.ok ready.prepared) (lead ++ summary) := fun _ => prepared
      have ranDry : dry = ⟨.exit 0, lead ++ summary ++ listing setting.console ready.output.result.paths, "",
          disk⟩ := by
        show run setting { arguments with dryRun := true } disk = _
        rw [run_of_prepared (preparedWith true), if_pos rfl, settle, says_list]
        rfl
      have ranWet : wet = write setting.console ready.prepared (lead ++ summary) disk :=
        run_of_prepared (preparedWith false)
      rw [write_eq] at ranWet
      rcases Project.writeFiles_run ready.prepared.directory ready.prepared.result.files disk with
        ⟨_, _, _, _, error, later, _, failed, _, _⟩ | ⟨later, ran, done⟩
      · rw [failed] at ranWet
        exact absurd (congrArg Outcome.ending ranWet) (written error)
      · rw [ran] at ranWet
        have paths : ready.prepared.result.files.map (Project.target ready.prepared.directory) =
            ready.output.result.paths.map fun path =>
              ready.config.projectPath.join (Path.ofString path) := by
          rw [GenerationResult.paths, List.map_map]
          rfl
        rw [paths] at ran ranWet
        simp only [List.length_map] at ranWet
        rw [ranDry, ranWet]
        refine ⟨rfl, rfl, fun failed => absurd rfl failed, fun _ => ⟨ready, rfl, ?_⟩⟩
        exact {
          printed := ⟨lead, summary, reported, rfl, rfl⟩
          listed := fun path member wide => pathLine_of_plan planned member wide
          written := ran
          exported := exported_of_written planned done }

def rootless : Disk := ⟨[(["t"], .file "\x7b\"root\": \"a\"\x7d".toUTF8)]⟩

theorem treeOf_rootless : treeOf rootless "t" = .ok ⟨"a", []⟩ := by
  have checked : (match treeOf rootless "t" with
      | .ok tree => tree.root == "a" && tree.elements.isEmpty
      | .error _ => false) = true := by decide +kernel
  cases read : treeOf rootless "t" with
  | error obstacle => simp [read] at checked
  | ok tree =>
      obtain ⟨root, elements⟩ := tree
      simp only [read, Bool.and_eq_true, beq_iff_eq, List.isEmpty_iff] at checked
      rw [checked.1, checked.2]

/-- Its files can be written: a missing element is tolerated. -/
theorem exists_plan_rootless : ∃ ready, plan bare (reading "t") rootless = .ok ready ∧
    ∃ paths later, (Project.writeFiles ready.config.projectPath ready.output.files).run rootless =
      (.ok paths, later) := by
  have used : UITree.usedTypes ⟨"a", []⟩ = [] := by cbv
  have checked : ((Project.outputOf Registry.packaged defaultMaxDepth ⟨"a", []⟩ default).toOption.any
      fun output => ((Project.writeFiles (default : Config).projectPath output.files).run rootless).1.isOk) =
      true := by
    simp only [Project.outputOf, Project.outputListing, used]
    decide +kernel
  cases built : Project.outputOf Registry.packaged defaultMaxDepth ⟨"a", []⟩ default with
  | error cause => simp [built, Except.toOption] at checked
  | ok output =>
      rw [built] at checked
      have accepted : optionsOf default [] = .ok default := rfl
      have planned : plan bare (reading "t") rootless = .ok ⟨default, ⟨"a", []⟩, output⟩ := by
        have configured : (configure bare.environment (reading "t").toOptions).mapError Obstacle.settings =
            .ok default := congrArg (Except.mapError Obstacle.settings) configure_unset
        have tolerated := Project.build_eq_ok_iff.mpr built
        have given : dataOf bare (reading "t").toOptions default rootless = .ok [] := rfl
        have made : outputOf default ⟨"a", []⟩ default = .ok output :=
          congrArg (Except.mapError Obstacle.project) tolerated
        rw [plan, bind_of_eq_ok configured, planWith, reading, bind_of_eq_ok treeOf_rootless]
        exact (bind_of_eq_ok given _).trans ((bind_of_eq_ok accepted _).trans (bind_of_eq_ok made _))
      refine ⟨_, planned, ?_⟩
      cases ran : (Project.writeFiles (default : Config).projectPath output.files).run rootless with
      | mk result later =>
          cases result with
          | error error => simp [ran, Except.toOption, Except.isOk, Except.toBool] at checked
          | ok paths => exact ⟨paths, later, rfl⟩

theorem run_previews_rootless :
    (∀ cause, (run bare { reading "t" with dryRun := false } rootless).ending ≠ .failure (.disk cause)) ∧
    (run bare { reading "t" with dryRun := true } rootless).ending = .exit 0 ∧
    ∃ ready, plan bare (reading "t") rootless = .ok ready ∧
      Previewed bare ready rootless (run bare { reading "t" with dryRun := true } rootless)
        (run bare { reading "t" with dryRun := false } rootless) := by
  obtain ⟨ready, planned, paths, later, ran⟩ := exists_plan_rootless
  obtain ⟨printed, dry⟩ : ∃ printed,
      run bare { reading "t" with dryRun := true } rootless = ⟨.exit 0, printed, "", rootless⟩ :=
    run_dry planned rfl
  obtain ⟨text, wet⟩ : ∃ printed, run bare { reading "t" with dryRun := false } rootless =
      write bare.console ready.prepared printed rootless := run_wet planned rfl
  have written : ∀ cause,
      (run bare { reading "t" with dryRun := false } rootless).ending ≠ .failure (.disk cause) := by
    intro cause
    have ran : (Project.writeFiles ready.prepared.directory ready.prepared.result.files).run rootless =
        (.ok paths, later) := ran
    rw [wet, write_eq, ran]
    exact nofun
  have ended : (run bare { reading "t" with dryRun := true } rootless).ending = .exit 0 := by
    rw [dry]
  exact ⟨written, ended, (run_previews bare (reading "t") rootless written).2.2.2 ended⟩

end Command

end TreeExport
