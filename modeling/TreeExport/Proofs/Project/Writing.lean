import TreeExport.Proofs.Disk.Obstruction
import TreeExport.Proofs.Project.Paths

/-!
Runs that write a project. A run that ends leaves at each path the last file with it, and a second run changes
nothing more. A run that stops at a file has written the files before it and no others.
-/

namespace TreeExport

namespace Project

open Disk

variable {disk middle later again : Disk} {directory : Path} {files done left : List GeneratedFile}
variable {file other : GeneratedFile} {place : Place} {error : Disk.Error} {paths : List Path}

/-! ### Places of files -/

def Inside (file : GeneratedFile) : Prop :=
  (Path.ofString file.path).root = .none ∧ ".." ∉ namesOf file

theorem target_of_inside (insideFile : Inside file) (insideOther : Inside other)
    (same : namesOf other = namesOf file) : target directory other = target directory file := by
  have path := Path.eq_of_names (insideOther.1.trans insideFile.1.symm) same
  rw [target, path, target]

theorem leads_iff_namesOf (insideFile : Inside file) (insideOther : Inside other)
    (located : disk.locate (target directory file) = .ok place) :
    disk.locate (target directory other) = .ok place ↔ namesOf other = namesOf file := by
  constructor
  · intro leads
    obtain ⟨above, base, split⟩ := exists_of_locate_join insideFile.1 insideFile.2 located
    obtain ⟨aboveToo, baseToo, splitToo⟩ := exists_of_locate_join insideOther.1 insideOther.2 leads
    obtain rfl := Except.ok.inj (base.symm.trans baseToo)
    exact List.append_cancel_left (splitToo.symm.trans split)
  · intro same
    rw [target_of_inside insideFile insideOther same, located]

theorem lastAt?_split (found : lastAt? disk directory files place = some other) :
    ∃ before after, files = before ++ other :: after ∧
      ∀ file ∈ after, disk.locate (target directory file) ≠ .ok place := by
  obtain ⟨_, after, before, split, skipped⟩ := List.find?_eq_some_iff_append.mp found
  refine ⟨before.reverse, after.reverse, ?_, ?_⟩
  · rw [← List.reverse_reverse files, split]
    simp
  · intro file member leads
    have refused := skipped file (List.mem_reverse.mp member)
    rw [leads_iff.mpr leads] at refused
    exact absurd refused (by decide)

theorem Written.exists_last (written : Written directory files disk later) (member : file ∈ files) :
    ∃ place last, later.locate (target directory file) = .ok place ∧
      lastAt? later directory files place = some last ∧
      later.fileAt? place = some last.content.toUTF8 := by
  obtain ⟨place, located⟩ := written.lands file member
  have listed : lastAt? later directory files place ≠ none := by
    intro absent
    exact lastAt?_eq_none_iff.mp absent file member located
  obtain ⟨last, found⟩ := Option.ne_none_iff_exists'.mp listed
  refine ⟨place, last, located, found, ?_⟩
  rw [written.holds, found]
  rfl

theorem Written.read_last (written : Written directory files disk later)
    (inside : ∀ file ∈ files, Inside file) (member : file ∈ files) :
    ∃ before last after, files = before ++ last :: after ∧ namesOf last = namesOf file ∧
      (∀ other ∈ after, namesOf other ≠ namesOf file) ∧
      later.read (target directory file) = .ok last.content.toUTF8 := by
  obtain ⟨place, last, located, found, stands⟩ := written.exists_last member
  obtain ⟨lastMember, leads⟩ := lastAt?_spec found
  obtain ⟨before, after, split, skipped⟩ := lastAt?_split found
  have same := (leads_iff_namesOf (inside file member) (inside last lastMember) located).mp leads
  refine ⟨before, last, after, split, same, ?_, read_of_fileAt? located stands⟩
  intro other behind sameToo
  have otherMember : other ∈ files := by
    rw [split]
    exact List.mem_append_right _ (List.mem_cons_of_mem last behind)
  exact skipped other behind
    ((leads_iff_namesOf (inside file member) (inside other otherMember) located).mpr sameToo)

theorem Written.fileAt?_of_not_leads (written : Written directory files disk later)
    (free : ∀ file ∈ files, later.locate (target directory file) ≠ .ok place) :
    later.fileAt? place = disk.fileAt? place := by
  rw [written.holds, lastAt?_eq_none_iff.mpr free]
  rfl

/-! ### A second run -/

/-- Whether two disks have directories in the same places and files in the same places. -/
structure Aligned (disk later : Disk) : Prop where
  grows : Grows disk later
  shrinks : Grows later disk
  files : ∀ place, (later.fileAt? place).isSome = (disk.fileAt? place).isSome

theorem Aligned.refl (disk : Disk) : Aligned disk disk :=
  ⟨.refl disk, .refl disk, fun _ => rfl⟩

theorem Aligned.trans (first : Aligned disk middle) (second : Aligned middle later) : Aligned disk later :=
  ⟨first.grows.trans second.grows, second.shrinks.trans first.shrinks,
    fun place => (second.files place).trans (first.files place)⟩

theorem Aligned.locate_eq_ok_iff (aligned : Aligned disk later) (path : Path) :
    later.locate path = .ok place ↔ disk.locate path = .ok place :=
  ⟨locate_of_grows aligned.shrinks, locate_of_grows aligned.grows⟩

theorem Aligned.lastAt?_eq (aligned : Aligned disk later) (directory : Path) (files : List GeneratedFile)
    (place : Place) : lastAt? later directory files place = lastAt? disk directory files place := by
  rw [lastAt?, lastAt?]
  congr 1
  funext file
  rw [Bool.eq_iff_iff, leads_iff, leads_iff, aligned.locate_eq_ok_iff]

theorem aligned_put (there : (disk.fileAt? place).isSome) (bytes : ByteArray) :
    Aligned disk (disk.put place (.file bytes)) := by
  obtain ⟨old, found⟩ := Option.isSome_iff_exists.mp there
  have isFile := fileAt?_eq_some_iff.mp found
  have free : disk.entryAt? place ≠ some .directory := by rw [isFile]; exact nofun
  refine ⟨grows_put free _, ?_, ?_⟩
  · intro other isDirectory
    rw [entryAt?_put free] at isDirectory
    split at isDirectory
    · exact absurd isDirectory nofun
    · exact isDirectory
  · intro other
    rw [fileAt?_put_file free]
    split
    · rename_i same
      rw [same, there]
      rfl
    · rfl

theorem writeFiles_over (there : ∀ file ∈ files, ∃ place,
    disk.locate (target directory file) = .ok place ∧ (disk.fileAt? place).isSome) :
    ∃ later, (writeFiles directory files).run disk = (.ok (files.map (target directory)), later) ∧
      Aligned disk later := by
  induction files generalizing disk with
  | nil => exact ⟨disk, rfl, .refl disk⟩
  | cons file files ih =>
      obtain ⟨place, located, here⟩ := there file List.mem_cons_self
      obtain ⟨bytes, found⟩ := Option.isSome_iff_exists.mp here
      have first := aligned_put here file.content.toUTF8
      have others : ∀ next ∈ files, ∃ other,
          (disk.put place (.file file.content.toUTF8)).locate (target directory next) = .ok other ∧
          ((disk.put place (.file file.content.toUTF8)).fileAt? other).isSome := by
        intro next member
        obtain ⟨other, leads, stands⟩ := there next (List.mem_cons_of_mem file member)
        exact ⟨other, (first.locate_eq_ok_iff _).mpr leads, (first.files other).trans stands⟩
      obtain ⟨later, ran, rest⟩ := ih others
      refine ⟨later, ?_, first.trans rest⟩
      rw [writeFiles_cons, run_bind, write_over located found]
      simp only [run_bind, ran]
      rfl

theorem Aligned.entryAt?_eq (aligned : Aligned disk later)
    (same : ∀ place, later.fileAt? place = disk.fileAt? place) (place : Place) :
    later.entryAt? place = disk.entryAt? place := by
  cases found : disk.entryAt? place with
  | none =>
      cases now : later.entryAt? place with
      | none => rfl
      | some entry =>
          cases entry with
          | directory => exact absurd (found.symm.trans (aligned.shrinks place now)) nofun
          | file bytes =>
              have isFile := (same place).symm.trans (fileAt?_eq_some_iff.mpr now)
              exact absurd (found.symm.trans (fileAt?_eq_some_iff.mp isFile)) nofun
  | some entry =>
      cases entry with
      | directory => exact aligned.grows place found
      | file bytes => exact fileAt?_eq_some_iff.mp ((same place).trans (fileAt?_eq_some_iff.mpr found))

theorem Written.writeFiles_again (written : Written directory files disk later) :
    ∃ again, (writeFiles directory files).run later = (.ok (files.map (target directory)), again) ∧
      ∀ place, again.entryAt? place = later.entryAt? place := by
  have there : ∀ file ∈ files, ∃ place,
      later.locate (target directory file) = .ok place ∧ (later.fileAt? place).isSome := by
    intro file member
    obtain ⟨place, _, located, _, stands⟩ := written.exists_last member
    exact ⟨place, located, Option.isSome_of_eq_some stands⟩
  obtain ⟨again, ran, aligned⟩ := writeFiles_over there
  refine ⟨again, ran, aligned.entryAt?_eq ?_⟩
  intro place
  rw [(written_of_run ran).holds, aligned.lastAt?_eq, written.holds]
  cases lastAt? later directory files place <;> rfl

/-! ### Runs that stop -/

/-- A run that stops has written all files before the one that it stops at. -/
theorem exists_stop (failed : (writeFiles directory files).run disk = (.error error, later)) :
    ∃ done file left middle, files = done ++ file :: left ∧
      (writeFiles directory done).run disk = (.ok (done.map (target directory)), middle) ∧
      (write (target directory file) file.content).run middle = (.error error, later) := by
  induction files generalizing disk with
  | nil => exact absurd (congrArg Prod.fst failed) nofun
  | cons file files ih =>
      rw [writeFiles_cons, run_bind] at failed
      -- The first file stops the run, or the others do on the disk that it leaves.
      cases first : (write (target directory file) file.content).run disk with
      | mk outcome middle =>
          rw [first] at failed
          cases outcome with
          | error failure =>
              obtain ⟨same, rfl⟩ := Prod.mk.inj failed
              obtain rfl := Except.error.inj same
              exact ⟨[], file, files, disk, rfl, rfl, first⟩
          | ok _ =>
              simp only [run_bind] at failed
              cases rest : (writeFiles directory files).run middle with
              | mk outcome final =>
                  rw [rest] at failed
                  cases outcome with
                  | ok paths => exact absurd (congrArg Prod.fst failed) nofun
                  | error failure =>
                      obtain ⟨same, rfl⟩ := Prod.mk.inj failed
                      obtain rfl := Except.error.inj same
                      obtain ⟨done, bad, left, last, rfl, ran, stopped⟩ := ih rest
                      refine ⟨file :: done, bad, left, last, rfl, ?_, stopped⟩
                      rw [writeFiles_cons, run_bind, first]
                      simp only [run_bind, ran]
                      rfl

theorem run_of_stop (ran : (writeFiles directory done).run disk = (.ok paths, middle))
    (stopped : (write (target directory file) file.content).run middle = (.error error, later)) :
    (writeFiles directory (done ++ file :: left)).run disk = (.error error, later) := by
  rw [writeFiles, List.mapM_append, ← writeFiles, ← writeFiles, run_bind, ran]
  simp only [run_bind, writeFiles_cons, stopped]

theorem fileAt?_of_stop
    (stopped : (write (target directory file) file.content).run middle = (.error error, later))
    (place : Place) : later.fileAt? place = middle.fileAt? place := by
  rcases write_run (target directory file) file.content middle with ⟨_, after, failed, made⟩ |
    ⟨after, ran, _⟩
  · rw [stopped] at failed
    obtain rfl : later = after := congrArg Prod.snd failed
    exact made.files place
  · rw [stopped] at ran
    exact absurd (congrArg Prod.fst ran) nofun

theorem eq_targets (ran : (writeFiles directory files).run disk = (.ok paths, later)) :
    paths = files.map (target directory) := by
  rcases writeFiles_run directory files disk with ⟨_, _, _, _, _, _, _, failed, _⟩ | ⟨after, done, _⟩
  · rw [ran] at failed
    exact absurd (congrArg Prod.fst failed) nofun
  · rw [ran] at done
    exact Except.ok.inj (congrArg Prod.fst done)

/-- A run that ends gives all paths in order. Each path has the last file with its names, all other files are
as before, and a second run leaves everything as it is. A run stops at the first file that is not written, with
the error of that write. Then something is in the way of that file, and the files on the disk are those that
were there after the files before it. -/
theorem writeFiles_keeps_last (directory : Path) (files : List GeneratedFile) (disk : Disk)
    (inside : ∀ file ∈ files, Inside file) :
    (∀ paths later, (writeFiles directory files).run disk = (.ok paths, later) →
      paths = files.map (target directory) ∧
      (∀ file ∈ files, ∃ before last after, files = before ++ last :: after ∧ namesOf last = namesOf file ∧
        (∀ other ∈ after, namesOf other ≠ namesOf file) ∧
        later.read (target directory file) = .ok last.content.toUTF8) ∧
      (∀ place, (∀ file ∈ files, later.locate (target directory file) ≠ .ok place) →
        later.fileAt? place = disk.fileAt? place) ∧
      ∃ again, (writeFiles directory files).run later = (.ok paths, again) ∧
        ∀ place, again.entryAt? place = later.entryAt? place) ∧
    (∀ error later, (writeFiles directory files).run disk = (.error error, later) →
      ∃ done file left middle, files = done ++ file :: left ∧
        (writeFiles directory done).run disk = (.ok (done.map (target directory)), middle) ∧
        (write (target directory file) file.content).run middle = (.error error, later)) ∧
    ∀ done file left middle, files = done ++ file :: left →
      (writeFiles directory done).run disk = (.ok (done.map (target directory)), middle) →
      (∀ error later, (write (target directory file) file.content).run middle = (.error error, later) →
        (writeFiles directory files).run disk = (.error error, later) ∧
        Obstructs later (target directory file) error.fault ∧
        ∀ place, later.fileAt? place = middle.fileAt? place) ∧
      ∀ fault, Obstructs middle (target directory file) fault →
        ∃ error later, (write (target directory file) file.content).run middle = (.error error, later) := by
  refine ⟨?_, fun error later => exists_stop, ?_⟩
  · intro paths later ran
    have written := written_of_run ran
    have same := eq_targets ran
    refine ⟨same, fun file member => written.read_last inside member,
      fun place free => written.fileAt?_of_not_leads free, ?_⟩
    rw [same]
    exact written.writeFiles_again
  · rintro done file left middle rfl ran
    refine ⟨?_, fun fault obstructs => exists_error_of_obstructs obstructs file.content⟩
    intro error later stopped
    exact ⟨run_of_stop ran stopped, write_eq_error stopped, fileAt?_of_stop stopped⟩

theorem run_of_isOk (succeeded : ((writeFiles directory files).run disk).1.isOk = true) :
    (writeFiles directory files).run disk =
      (.ok (files.map (target directory)), ((writeFiles directory files).run disk).2) := by
  cases ran : (writeFiles directory files).run disk with
  | mk outcome later =>
      cases outcome with
      | error failure => simp [ran, Except.isOk, Except.toBool] at succeeded
      | ok paths => rw [eq_targets ran]

def respelled : List GeneratedFile := [⟨"a", "1"⟩, ⟨"b/c", "2"⟩, ⟨"./a", "3"⟩]

def misplaced : List GeneratedFile := [⟨"a", "1"⟩, ⟨"a/b", "2"⟩, ⟨"c", "3"⟩]

theorem writeFiles_keeps_last_respelled :
    (∃ later again, (writeFiles (.ofString "out") respelled).run Disk.empty =
        (.ok [.ofString "out/a", .ofString "out/b/c", .ofString "out/a"], later) ∧
      later.read (.ofString "out/a") = .ok "3".toUTF8 ∧
      ((writeFiles (.ofString "out") respelled).run later).2 = again ∧
      ∀ place, again.entryAt? place = later.entryAt? place) ∧
    ∃ error middle later,
      (writeFiles (.ofString "out") [⟨"a", "1"⟩]).run Disk.empty = (.ok [.ofString "out/a"], middle) ∧
      (writeFiles (.ofString "out") misplaced).run Disk.empty = (.error error, later) ∧
      Obstructs later (.ofString "out/a/b") error.fault ∧
      ∀ place, later.fileAt? place = middle.fileAt? place := by
  have insideRespelled : ∀ file ∈ respelled, Inside file := by
    simp only [Inside]
    decide +kernel
  have insideMisplaced : ∀ file ∈ misplaced, Inside file := by
    simp only [Inside]
    decide +kernel
  have ran : (writeFiles (.ofString "out") respelled).run Disk.empty = _ :=
    run_of_isOk (by decide +kernel)
  have first : (writeFiles (.ofString "out") [⟨"a", "1"⟩]).run Disk.empty = _ :=
    run_of_isOk (by decide +kernel)
  have targets : respelled.map (target (.ofString "out")) =
      [.ofString "out/a", .ofString "out/b/c", .ofString "out/a"] := by decide +kernel
  refine ⟨?_, ?_⟩
  · obtain ⟨_, kept, _, again, rerun, same⟩ :=
      (writeFiles_keeps_last (.ofString "out") respelled Disk.empty insideRespelled).1 _ _ ran
    obtain ⟨before, last, after, split, sameNames, later, read⟩ :=
      kept ⟨"./a", "3"⟩ (by decide)
    have content : last.content = "3" := by
      have unlike : namesOf ⟨"b/c", "2"⟩ ≠ namesOf ⟨"./a", "3"⟩ := by decide +kernel
      match before, split with
      | [], split =>
          obtain ⟨_, rfl⟩ := List.cons.inj split
          exact absurd rfl (later ⟨"./a", "3"⟩ (by decide))
      | [_], split =>
          obtain ⟨_, split⟩ := List.cons.inj split
          obtain ⟨rfl, _⟩ := List.cons.inj split
          exact absurd sameNames unlike
      | [_, _], split =>
          obtain ⟨_, split⟩ := List.cons.inj split
          obtain ⟨_, split⟩ := List.cons.inj split
          obtain ⟨rfl, _⟩ := List.cons.inj split
          rfl
      | _ :: _ :: _ :: rest, split => simp [respelled] at split
    have path : target (.ofString "out") ⟨"./a", "3"⟩ = .ofString "out/a" := by decide +kernel
    rw [targets] at ran
    rw [content, path] at read
    exact ⟨_, _, ran, read, congrArg Prod.snd rerun, same⟩
  · obtain ⟨place, _, located, _, stands⟩ := (written_of_run first).exists_last List.mem_cons_self
    have path : target (.ofString "out") ⟨"a", "1"⟩ = .ofString "out/a" := by decide +kernel
    have deeper : target (.ofString "out") ⟨"a/b", "2"⟩ = .ofString "out/a/b" := by decide +kernel
    obtain ⟨_, _, stops⟩ :=
      writeFiles_keeps_last (.ofString "out") misplaced Disk.empty insideMisplaced
    obtain ⟨fails, blocks⟩ := stops [⟨"a", "1"⟩] ⟨"a/b", "2"⟩ [⟨"c", "3"⟩] _ rfl first
    rw [deeper] at fails blocks
    rw [path] at located
    have split : (Path.ofString "out/a/b").parts = (Path.ofString "out/a").parts ++ [⟨"b", by decide⟩] := by
      decide
    obtain ⟨error, later, stopped⟩ :=
      blocks .notDirectory (.file split located (fileAt?_eq_some_iff.mp stands) (Or.inr rfl))
    obtain ⟨ended, obstructs, same⟩ := fails error later stopped
    rw [List.map_singleton, path] at first
    exact ⟨error, _, later, first, ended, obstructs, same⟩

end Project

end TreeExport
