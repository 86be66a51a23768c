import TreeExport.Project.Write
import TreeExport.Proofs.Disk.Growth

/-!
What is on a disk after files were written. Making directories changes no file, and a write that succeeds
puts one file where its path leads; a write that fails changes no file at all.
-/

namespace TreeExport

namespace Disk

def Extending {α : Type} (action : Action α) : Prop :=
  ∀ disk, Extends disk (action.run disk).2

section Extending

variable {α β : Type} {action : Action α} {path : Path}

theorem extending_pure (value : α) : Extending (pure value : Action α) :=
  fun disk => .refl disk

theorem extending_throw (error : Error) : Extending (throw error : Action α) :=
  fun disk => .refl disk

theorem extending_get : Extending (get : Action Disk) :=
  fun disk => .refl disk

theorem extending_bind {further : α → Action β} (first : Extending action)
    (next : ∀ value, Extending (further value)) : Extending (action >>= further) := by
  intro disk
  rw [run_bind]
  cases (action.run disk).1 with
  | error failure => exact first disk
  | ok value => exact (first disk).trans (next value _)

theorem extending_tryCatch {handle : Error → Action α} (first : Extending action)
    (next : ∀ error, Extending (handle error)) : Extending (tryCatch action handle) := by
  intro disk
  rw [run_tryCatch]
  cases (action.run disk).1 with
  | error failure => exact (first disk).trans (next failure _)
  | ok value => exact first disk

theorem extending_makeDirectory : Extending (makeDirectory path) := by
  intro disk
  rw [makeDirectory, run_bind, run_get]
  cases located : disk.locate path with
  | error fault =>
      simp only [located]
      exact .refl disk
  | ok place =>
      by_cases taken : (disk.entryAt? place).isSome = true
      · simp only [located, if_pos taken]
        exact .refl disk
      · simp only [located, if_neg taken]
        exact extends_put_directory (Option.not_isSome_iff_eq_none.mp taken)

theorem extending_ensureDirectory : Extending (ensureDirectory path) := by
  apply extending_tryCatch extending_makeDirectory
  intro error
  apply extending_bind extending_get
  intro disk
  split
  · exact extending_throw error
  · exact extending_pure ()

theorem extending_makeDirectories (path : Path) : Extending (makeDirectories path) := by
  rw [makeDirectories]
  apply extending_tryCatch extending_ensureDirectory
  intro error
  split
  · rename_i deeper
    have shorter : path.parent.parts.length < path.parts.length := by
      have := List.length_pos_iff.mpr deeper.2
      rw [Path.parent, List.length_dropLast]
      omega
    exact extending_bind (extending_makeDirectories path.parent) fun _ => extending_ensureDirectory
  · exact extending_throw error
termination_by path.parts.length

end Extending

/-! ### Writing one file -/

section Write

variable {disk later : Disk} {path : Path} {text : String}

structure Wrote (path : Path) (text : String) (disk later : Disk) : Prop where
  grows : Grows disk later
  lands : ∃ place, later.locate path = .ok place ∧
    ∀ other, later.fileAt? other = if other = place then some text.toUTF8 else disk.fileAt? other

theorem writeFile_run (path : Path) (text : String) (disk : Disk) :
    (∃ error, (writeFile path text).run disk = (.error error, disk)) ∨
    ∃ later, (writeFile path text).run disk = (.ok (), later) ∧ Wrote path text disk later := by
  rw [writeFile, run_bind, run_get]
  cases located : disk.locate path with
  | error fault =>
      simp only [located]
      exact Or.inl ⟨_, rfl⟩
  | ok place =>
      by_cases free : disk.entryAt? place = some .directory
      · simp only [located, free]
        exact Or.inl ⟨_, rfl⟩
      · right
        have grows := grows_put free (.file text.toUTF8)
        refine ⟨disk.put place (.file text.toUTF8), ?_, grows, place, locate_of_grows grows located,
          fileAt?_put_file free _⟩
        cases found : disk.entryAt? place with
        | none => simp only [located, found]; rfl
        | some entry =>
            cases entry with
            | file bytes => simp only [located, found]; rfl
            | directory => exact absurd found free

theorem write_run (path : Path) (text : String) (disk : Disk) :
    (∃ error later, (write path text).run disk = (.error error, later) ∧ Extends disk later) ∨
    ∃ later, (write path text).run disk = (.ok (), later) ∧ Wrote path text disk later := by
  have made := extending_makeDirectories path.parent disk
  rw [write, run_bind]
  cases result : (makeDirectories path.parent).run disk with
  | mk outcome middle =>
      rw [result] at made
      cases outcome with
      | error error => exact Or.inl ⟨error, middle, rfl, made⟩
      | ok _ =>
          rcases writeFile_run path text middle with ⟨error, failed⟩ | ⟨later, ran, wrote⟩
          · exact Or.inl ⟨error, middle, failed, made⟩
          · obtain ⟨place, located, files⟩ := wrote.lands
            refine Or.inr ⟨later, ran, made.grows.trans wrote.grows, place, located, ?_⟩
            intro other
            rw [files, made.files]

end Write

end Disk

/-! ### Writing a project -/

namespace Project

open Disk

variable {disk later : Disk} {directory : Path} {files : List GeneratedFile}

def target (directory : Path) (file : GeneratedFile) : Path :=
  directory.join (Path.ofString file.path)

def lastAt? (disk : Disk) (directory : Path) (files : List GeneratedFile) (place : Place) :
    Option GeneratedFile :=
  files.reverse.find? fun file => (disk.locate (target directory file)).toOption == some place

theorem leads_iff {file : GeneratedFile} {place : Place} :
    ((disk.locate (target directory file)).toOption == some place) = true ↔
      disk.locate (target directory file) = .ok place := by
  rw [beq_iff_eq]
  cases disk.locate (target directory file) <;> simp [Except.toOption]

theorem lastAt?_spec {file : GeneratedFile} {place : Place}
    (found : lastAt? disk directory files place = some file) :
    file ∈ files ∧ disk.locate (target directory file) = .ok place := by
  rw [lastAt?] at found
  have leads := List.find?_some found
  exact ⟨List.mem_reverse.mp (List.mem_of_find?_eq_some found), leads_iff.mp leads⟩

theorem lastAt?_eq_none_iff {place : Place} : lastAt? disk directory files place = none ↔
    ∀ file ∈ files, disk.locate (target directory file) ≠ .ok place := by
  rw [lastAt?, List.find?_eq_none]
  simp only [List.mem_reverse, leads_iff, ne_eq]

/-- What a disk is after files were written: each path leads somewhere, and a place holds the last file
whose path leads to it, or else what it held before. -/
structure Written (directory : Path) (files : List GeneratedFile) (disk later : Disk) : Prop where
  grows : Grows disk later
  lands : ∀ file ∈ files, ∃ place, later.locate (target directory file) = .ok place
  holds : ∀ place, later.fileAt? place =
    ((lastAt? later directory files place).map fun file => file.content.toUTF8).or (disk.fileAt? place)

theorem written_cons {file : GeneratedFile} {middle : Disk}
    (first : Wrote (target directory file) file.content disk middle)
    (rest : Written directory files middle later) : Written directory (file :: files) disk later := by
  obtain ⟨place, located, changed⟩ := first.lands
  have stays := locate_of_grows rest.grows located
  refine ⟨first.grows.trans rest.grows, List.forall_mem_cons.mpr ⟨⟨place, stays⟩, rest.lands⟩, ?_⟩
  intro other
  rw [rest.holds, changed, lastAt?, lastAt?, List.reverse_cons, List.find?_append]
  -- A later file at the same place wins, so the first one counts only where no other leads.
  cases (files.reverse.find? fun file =>
      (later.locate (target directory file)).toOption == some other) with
  | some last => rfl
  | none =>
      by_cases same : other = place
      · simp [same, stays, Except.toOption]
      · simp [same, stays, Except.toOption, Ne.symm same]

theorem writeFiles_cons (file : GeneratedFile) : writeFiles directory (file :: files) = do
    Disk.write (target directory file) file.content
    let paths ← writeFiles directory files
    return target directory file :: paths := by
  rw [writeFiles, List.mapM_cons, bind_assoc]
  simp only [pure_bind]
  rfl

/-- Files are written one after the other. A failure keeps the files before the one that it concerns, and
all others are as they were. -/
theorem writeFiles_run (directory : Path) (files : List GeneratedFile) (disk : Disk) :
    (∃ done file left middle error later, files = done ++ file :: left ∧
      (writeFiles directory files).run disk = (.error error, later) ∧
      Written directory done disk middle ∧ Extends middle later) ∨
    ∃ later, (writeFiles directory files).run disk = (.ok (files.map (target directory)), later) ∧
      Written directory files disk later := by
  -- Each file is written to the disk that the files before it have left.
  induction files generalizing disk with
  | nil => exact Or.inr ⟨disk, rfl, .refl disk, nofun, fun place => rfl⟩
  | cons file files ih =>
      rw [writeFiles_cons, run_bind]
      rcases write_run (target directory file) file.content disk with ⟨error, later, failed, made⟩ |
        ⟨middle, wrote, first⟩
      · rw [failed]
        exact Or.inl ⟨[], file, files, disk, error, later, rfl, rfl, ⟨.refl disk, nofun, fun place => rfl⟩,
          made⟩
      · rw [wrote]
        simp only [run_bind]
        rcases ih middle with ⟨done, bad, left, last, error, later, rfl, failed, written, made⟩ |
          ⟨later, ran, rest⟩
        · rw [failed]
          exact Or.inl ⟨file :: done, bad, left, last, error, later, rfl, rfl, written_cons first written,
            made⟩
        · rw [ran]
          exact Or.inr ⟨later, rfl, written_cons first rest⟩

theorem written_of_run {paths : List Path}
    (ran : (writeFiles directory files).run disk = (.ok paths, later)) :
    Written directory files disk later := by
  rcases writeFiles_run directory files disk with ⟨_, _, _, _, _, _, _, failed, _⟩ | ⟨after, done, written⟩
  · rw [ran] at failed
    exact absurd (congrArg Prod.fst failed) nofun
  · rw [ran] at done
    obtain rfl : later = after := congrArg Prod.snd done
    exact written

end Project

end TreeExport
