import TreeExport.Proofs.Disk.Writing
import Mathlib.Data.List.Induction

/-!
What keeps a file from being written. Directories that are not there are made, so a write fails only where a
directory stands at the path, where a file stands on the way, or where a name cannot be one.
-/

namespace TreeExport

namespace Disk

/-- What is in the way of a file at a path. -/
inductive Obstructs (disk : Disk) (path : Path) : Fault → Prop
  | directory {place : Place} : disk.locate path = .ok place → disk.entryAt? place = some .directory →
      Obstructs disk path .isDirectory
  | file {upper after : List PathName} {name : PathName} {place : Place} {bytes : ByteArray} {fault : Fault} :
      path.parts = upper ++ name :: after → disk.locate ⟨path.root, upper⟩ = .ok place →
      disk.entryAt? place = some (.file bytes) → fault = .taken ∨ fault = .notDirectory →
      Obstructs disk path fault
  | longName {name : String} : name ∈ path.names → name ≠ ".." → nameLimit < name.utf8ByteSize →
      Obstructs disk path .longName
  | longPath : pathLimit ≤ path.toString.utf8ByteSize → Obstructs disk path .longName
  | zeroCharacter {name : String} : name ∈ path.names → '\x00' ∈ name.toList →
      Obstructs disk path .zeroCharacter

variable {disk later : Disk} {place other : Place} {path : Path} {root : PathRoot} {parts : List PathName}
variable {name text : String} {last : PathName} {fault : Fault} {error : Error} {bytes : ByteArray}

theorem Obstructs.append (obstructs : Obstructs disk ⟨root, parts⟩ fault) (through : fault ≠ .isDirectory)
    (more : List PathName) : Obstructs disk ⟨root, parts ++ more⟩ fault := by
  have below {name : String} (member : name ∈ Path.names ⟨root, parts⟩) :
      name ∈ Path.names ⟨root, parts ++ more⟩ := by
    rw [Path.names_append]
    exact List.mem_append_left _ member
  cases obstructs with
  | directory _ _ => exact absurd rfl through
  | @file upper after name place bytes _ split located found kind =>
      have split : parts = upper ++ name :: after := split
      have deeper : parts ++ more = upper ++ name :: (after ++ more) := by
        rw [split, List.append_assoc, List.cons_append]
      exact .file deeper located found kind
  | longName member moves long => exact .longName (below member) moves long
  | longPath long => exact .longPath (Nat.le_trans long (Path.utf8ByteSize_toString_le root parts more))
  | zeroCharacter member zero => exact .zeroCharacter (below member) zero

/-! ### Following a path -/

theorem entryAt?_startOf (disk : Disk) (root : PathRoot) : disk.entryAt? (startOf root) = some .directory := by
  cases root <;> rfl

theorem locate_start (disk : Disk) (root : PathRoot) : disk.locate ⟨root, []⟩ = .ok (startOf root) := by
  cases root <;> rfl

theorem locate_append_singleton (passable : Passable ⟨root, parts ++ [last]⟩) :
    disk.locate ⟨root, parts ++ [last]⟩ =
      disk.locate ⟨root, parts⟩ >>= fun place => disk.follow place last.text := by
  rw [locate_of_passable passable, locate_of_passable passable.of_append, Path.names_append, List.foldlM_append]
  simp only [List.map_cons, List.map_nil, List.foldlM_cons, List.foldlM_nil, bind_pure]

theorem follow_eq_ok (followed : disk.follow place name = .ok other) :
    disk.entryAt? place = some .directory ∧ (name = ".." ∨ name.utf8ByteSize ≤ nameLimit) := by
  rw [follow] at followed
  split at followed
  · cases followed
  · cases followed
  · rename_i isDirectory
    refine ⟨isDirectory, ?_⟩
    by_cases up : name = ".."
    · exact Or.inl up
    · rw [if_neg up] at followed
      split at followed
      · cases followed
      · exact Or.inr (by omega)

theorem follow_eq_error (failed : disk.follow place name = .error fault) :
    disk.entryAt? place = none ∧ fault = .missing ∨
    (∃ bytes, disk.entryAt? place = some (.file bytes)) ∧ fault = .notDirectory ∨
    name ≠ ".." ∧ nameLimit < name.utf8ByteSize ∧ fault = .longName := by
  rw [follow] at failed
  split at failed
  · rename_i free
    exact Or.inl ⟨free, (Except.error.inj failed).symm⟩
  · rename_i bytes found
    exact Or.inr (Or.inl ⟨⟨bytes, found⟩, (Except.error.inj failed).symm⟩)
  · split at failed
    · cases failed
    · rename_i moves
      split at failed
      · rename_i long
        exact Or.inr (Or.inr ⟨moves, long, (Except.error.inj failed).symm⟩)
      · cases failed

theorem obstructs_of_locate (failed : disk.locate ⟨root, parts⟩ = .error fault) :
    fault = .missing ∨ Obstructs disk ⟨root, parts⟩ fault ∧ fault ≠ .isDirectory := by
  induction parts using List.reverseRecOn with
  | nil =>
      rw [locate_start] at failed
      exact absurd failed nofun
  | append_singleton parts last ih =>
      by_cases zero : HasZero (Path.names ⟨root, parts ++ [last]⟩)
      · obtain rfl := Except.error.inj ((locate_of_hasZero zero).symm.trans failed)
        obtain ⟨name, member, inside⟩ := zero
        exact Or.inr ⟨.zeroCharacter member inside, nofun⟩
      by_cases long : pathLimit ≤ (Path.toString ⟨root, parts ++ [last]⟩).utf8ByteSize
      · obtain rfl := Except.error.inj ((locate_of_long zero long).symm.trans failed)
        exact Or.inr ⟨.longPath long, nofun⟩
      rw [locate_append_singleton ⟨zero, Nat.lt_of_not_le long⟩] at failed
      rcases bind_eq_error_iff.mp failed with above | ⟨place, located, failed⟩
      · refine (ih above).imp id ?_
        rintro ⟨obstructs, through⟩
        exact ⟨obstructs.append through [last], through⟩
      · rcases follow_eq_error failed with ⟨_, rfl⟩ | ⟨⟨bytes, found⟩, rfl⟩ | ⟨moves, long, rfl⟩
        · exact Or.inl rfl
        · exact Or.inr ⟨.file rfl located found (Or.inr rfl), nofun⟩
        · have member : last.text ∈ Path.names ⟨root, parts ++ [last]⟩ := by
            rw [Path.names_append]
            exact List.mem_append_right _ List.mem_cons_self
          exact Or.inr ⟨.longName member moves long, nofun⟩

def LeadsToDirectory (disk : Disk) (path : Path) : Prop :=
  ∃ place, disk.locate path = .ok place ∧ disk.entryAt? place = some .directory

theorem LeadsToDirectory.isDirectory (there : LeadsToDirectory disk path) : disk.isDirectory path = true := by
  obtain ⟨place, located, found⟩ := there
  rw [Disk.isDirectory, located]
  simp only [Except.toOption, Option.bind_some, found]

theorem isDirectory_of_file (located : disk.locate path = .ok place)
    (found : disk.entryAt? place = some (.file bytes)) : disk.isDirectory path = false := by
  rw [isDirectory, located]
  simp only [Except.toOption, Option.bind_some, found]

theorem LeadsToDirectory.not_missing (there : LeadsToDirectory disk ⟨root, parts⟩) :
    disk.locate ⟨root, parts ++ [last]⟩ ≠ .error .missing := by
  intro failed
  obtain ⟨place, located, found⟩ := there
  have passable : Passable ⟨root, parts ++ [last]⟩ := by
    by_cases zero : HasZero (Path.names ⟨root, parts ++ [last]⟩)
    · exact absurd ((locate_of_hasZero zero).symm.trans failed) nofun
    · refine ⟨zero, Nat.lt_of_not_le fun long => ?_⟩
      exact absurd ((locate_of_long zero long).symm.trans failed) nofun
  rw [locate_append_singleton passable, bind_of_eq_ok located] at failed
  rcases follow_eq_error failed with ⟨free, _⟩ | ⟨_, same⟩ | ⟨_, _, same⟩
  · rw [found] at free
    exact absurd free nofun
  · exact absurd same nofun
  · exact absurd same nofun

/-! ### Making directories -/

theorem makeDirectory_run (path : Path) (disk : Disk) :
    (∃ place, disk.locate path = .ok place ∧ disk.entryAt? place = none ∧
      (makeDirectory path).run disk = (.ok (), disk.put place .directory)) ∨
    (∃ place entry, disk.locate path = .ok place ∧ disk.entryAt? place = some entry ∧
      (makeDirectory path).run disk = (.error ⟨.taken, path⟩, disk)) ∨
    ∃ fault, disk.locate path = .error fault ∧
      (makeDirectory path).run disk = (.error ⟨fault, path⟩, disk) := by
  rw [makeDirectory, run_bind, run_get]
  cases located : disk.locate path with
  | error fault =>
      simp only [located]
      exact Or.inr (Or.inr ⟨fault, rfl, rfl⟩)
  | ok place =>
      cases found : disk.entryAt? place with
      | none =>
          refine Or.inl ⟨place, rfl, found, ?_⟩
          simp only [located, found]
          rfl
      | some entry =>
          refine Or.inr (Or.inl ⟨place, entry, rfl, found, ?_⟩)
          simp only [located, found]
          rfl

def Unmade (disk : Disk) (path : Path) (fault : Fault) : Prop :=
  disk.locate path = .error fault ∨
  fault = .taken ∧ ∃ place bytes, disk.locate path = .ok place ∧ disk.entryAt? place = some (.file bytes)

theorem Unmade.obstructs (unmade : Unmade disk ⟨root, parts⟩ fault) (present : fault ≠ .missing) :
    fault ≠ .isDirectory ∧ ∀ last, Obstructs disk ⟨root, parts ++ [last]⟩ fault := by
  rcases unmade with nowhere | ⟨rfl, place, bytes, located, found⟩
  · obtain ⟨obstructs, through⟩ := (obstructs_of_locate nowhere).resolve_left present
    exact ⟨through, fun last => obstructs.append through [last]⟩
  · exact ⟨nofun, fun last => .file rfl located found (Or.inl rfl)⟩

theorem ensureDirectory_run (path : Path) (disk : Disk) :
    (∃ later, (ensureDirectory path).run disk = (.ok (), later) ∧ LeadsToDirectory later path) ∨
    ∃ fault, (ensureDirectory path).run disk = (.error ⟨fault, path⟩, disk) ∧ Unmade disk path fault := by
  rw [ensureDirectory, run_tryCatch]
  -- A place that is taken counts as made if a directory stands there.
  rcases makeDirectory_run path disk with ⟨place, located, free, ran⟩ | ⟨place, entry, located, found, ran⟩ |
    ⟨fault, located, ran⟩
  · have blocked : disk.entryAt? place ≠ some .directory := by rw [free]; exact nofun
    rw [ran]
    refine Or.inl ⟨_, rfl, place, locate_of_grows (grows_put blocked .directory) located, ?_⟩
    rw [entryAt?_put blocked, if_pos rfl]
  · rw [ran]
    simp only [run_bind, run_get]
    cases entry with
    | directory =>
        have there : LeadsToDirectory disk path := ⟨place, located, found⟩
        exact Or.inl ⟨disk, by simp [there.isDirectory]; rfl, there⟩
    | file bytes =>
        refine Or.inr ⟨.taken, ?_, Or.inr ⟨rfl, place, bytes, located, found⟩⟩
        simp [isDirectory_of_file located found]
        rfl
  · have nowhere : disk.isDirectory path = false := by
      rw [isDirectory, located]
      rfl
    rw [ran]
    simp only [run_bind, run_get]
    refine Or.inr ⟨fault, ?_, Or.inl located⟩
    simp [nowhere]
    rfl

theorem ensureDirectory_of_leadsToDirectory (there : LeadsToDirectory disk path) :
    (ensureDirectory path).run disk = (.ok (), disk) := by
  obtain ⟨place, located, found⟩ := there
  have there : LeadsToDirectory disk path := ⟨place, located, found⟩
  rw [ensureDirectory, run_tryCatch]
  rcases makeDirectory_run path disk with ⟨other, leads, free, _⟩ | ⟨_, _, _, _, ran⟩ | ⟨_, nowhere, _⟩
  · obtain rfl := Except.ok.inj (located.symm.trans leads)
    rw [found] at free
    exact absurd free nofun
  · rw [ran]
    simp only [run_bind, run_get]
    simp [there.isDirectory]
    rfl
  · rw [located] at nowhere
    exact absurd nowhere nofun

theorem makeDirectories_of_leadsToDirectory (there : LeadsToDirectory disk path) :
    (makeDirectories path).run disk = (.ok (), disk) := by
  rw [makeDirectories, run_tryCatch, ensureDirectory_of_leadsToDirectory there]

theorem LeadsToDirectory.start (disk : Disk) (root : PathRoot) : LeadsToDirectory disk ⟨root, []⟩ :=
  ⟨startOf root, locate_start disk root, entryAt?_startOf disk root⟩

/-- What keeps a directory from being made is in the way of every file in it. -/
theorem makeDirectories_run (root : PathRoot) (parts : List PathName) (disk : Disk) :
    (∃ later, (makeDirectories ⟨root, parts⟩).run disk = (.ok (), later) ∧
      LeadsToDirectory later ⟨root, parts⟩) ∨
    ∃ error later, (makeDirectories ⟨root, parts⟩).run disk = (.error error, later) ∧ parts ≠ [] ∧
      error.fault ≠ .isDirectory ∧ ∀ last, Obstructs later ⟨root, parts ++ [last]⟩ error.fault := by
  induction parts using List.reverseRecOn generalizing disk with
  | nil =>
      have there := LeadsToDirectory.start disk root
      exact Or.inl ⟨disk, makeDirectories_of_leadsToDirectory there, there⟩
  | append_singleton parts name ih =>
      rw [makeDirectories, run_tryCatch]
      rcases ensureDirectory_run ⟨root, parts ++ [name]⟩ disk with ⟨later, ran, there⟩ |
        ⟨fault, ran, unmade⟩
      · rw [ran]
        exact Or.inl ⟨later, rfl, there⟩
      rw [ran]
      by_cases missing : fault = .missing
      · -- The directories above come first, and then this one is tried again.
        have again : fault = .missing ∧ parts ++ [name] ≠ [] := ⟨missing, by simp⟩
        simp only [dif_pos again, run_bind, Path.parent, List.dropLast_concat]
        rcases ih disk with ⟨middle, made, above⟩ | ⟨error, later, failed, _, through, blocked⟩
        · rw [made]
          rcases ensureDirectory_run ⟨root, parts ++ [name]⟩ middle with ⟨later, done, there⟩ |
            ⟨fault, done, unmade⟩
          · exact Or.inl ⟨later, done, there⟩
          · refine Or.inr ⟨_, middle, done, by simp, unmade.obstructs ?_⟩
            rintro rfl
            rcases unmade with nowhere | ⟨taken, _⟩
            · exact above.not_missing nowhere
            · cases taken
        · rw [failed]
          exact Or.inr ⟨error, later, rfl, by simp, through, fun last => (blocked name).append through [last]⟩
      · simp only [missing, false_and, ↓reduceDIte]
        exact Or.inr ⟨_, disk, rfl, by simp, unmade.obstructs missing⟩

/-! ### Writing a file -/

theorem exists_follow_of_locate {upper after : List PathName}
    (located : disk.locate ⟨root, upper ++ last :: after⟩ = .ok place) :
    ∃ above, disk.locate ⟨root, upper⟩ = .ok above ∧ disk.entryAt? above = some .directory ∧
      (last.text = ".." ∨ last.text.utf8ByteSize ≤ nameLimit) := by
  have passable := passable_of_locate located
  rw [locate_of_passable passable, Path.names_append, List.foldlM_append] at located
  obtain ⟨above, first, rest⟩ := exists_of_bind_eq_ok located
  rw [List.map_cons, List.foldlM_cons] at rest
  obtain ⟨next, followed, _⟩ := exists_of_bind_eq_ok rest
  exact ⟨above, (locate_of_passable passable.of_append).trans first, follow_eq_ok followed⟩

theorem not_obstructs (located : disk.locate path = .ok place)
    (found : disk.entryAt? place = some (.file bytes)) : ¬Obstructs disk path fault := by
  obtain ⟨root, parts⟩ := path
  intro obstructs
  cases obstructs with
  | directory leads isDirectory =>
      obtain rfl := Except.ok.inj (located.symm.trans leads)
      rw [found] at isDirectory
      exact absurd isDirectory nofun
  | file split leads isFile _ =>
      obtain rfl : parts = _ := split
      obtain ⟨above, through, isDirectory, _⟩ := exists_follow_of_locate located
      obtain rfl := Except.ok.inj (leads.symm.trans through)
      rw [isFile] at isDirectory
      exact absurd isDirectory nofun
  | longName member moves long =>
      obtain ⟨name, listed, rfl⟩ := List.mem_map.mp member
      obtain ⟨upper, after, rfl⟩ := List.append_of_mem listed
      obtain ⟨_, _, _, short⟩ := exists_follow_of_locate located
      exact absurd (short.resolve_left moves) (by omega)
  | longPath long => exact absurd (passable_of_locate located).short (Nat.not_lt_of_le long)
  | zeroCharacter member zero => exact absurd ⟨_, member, zero⟩ (passable_of_locate located).clean

theorem fileAt?_eq_some_iff : disk.fileAt? place = some bytes ↔ disk.entryAt? place = some (.file bytes) := by
  rw [fileAt?]
  split
  · rename_i found
    rw [found]
    simp
  · rename_i free
    refine ⟨?_, fun found => absurd found (free bytes)⟩
    intro found
    cases found

theorem Obstructs.of_grows (obstructs : Obstructs disk path fault) (grows : Grows disk later)
    (kept : ∀ place, (disk.fileAt? place).isSome → (later.fileAt? place).isSome) :
    Obstructs later path fault := by
  cases obstructs with
  | directory located found => exact .directory (locate_of_grows grows located) (grows _ found)
  | file split located found kind =>
      have there := kept _ (Option.isSome_of_eq_some (fileAt?_eq_some_iff.mpr found))
      obtain ⟨bytes, there⟩ := Option.isSome_iff_exists.mp there
      exact .file split (locate_of_grows grows located) (fileAt?_eq_some_iff.mp there) kind
  | longName member moves long => exact .longName member moves long
  | longPath long => exact .longPath long
  | zeroCharacter member zero => exact .zeroCharacter member zero

theorem Wrote.exists_file (wrote : Wrote path text disk later) :
    ∃ place, later.locate path = .ok place ∧ later.fileAt? place = some text.toUTF8 := by
  obtain ⟨place, located, files⟩ := wrote.lands
  exact ⟨place, located, by rw [files, if_pos rfl]⟩

theorem Wrote.keeps (wrote : Wrote path text disk later) (place : Place)
    (there : (disk.fileAt? place).isSome) : (later.fileAt? place).isSome := by
  obtain ⟨other, _, files⟩ := wrote.lands
  rw [files]
  split
  · rfl
  · exact there

theorem writeFile_of_locate (located : disk.locate path = .ok place)
    (free : disk.entryAt? place ≠ some .directory) :
    (writeFile path text).run disk = (.ok (), disk.put place (.file text.toUTF8)) := by
  rw [writeFile, run_bind, run_get]
  cases found : disk.entryAt? place with
  | none => simp only [located, found]; rfl
  | some entry =>
      cases entry with
      | file bytes => simp only [located, found]; rfl
      | directory => exact absurd found free

theorem writeFile_eq_error (failed : (writeFile path text).run disk = (.error error, later)) :
    later = disk ∧ (disk.locate path = .error error.fault ∨ error.fault = .isDirectory ∧
      ∃ place, disk.locate path = .ok place ∧ disk.entryAt? place = some .directory) := by
  cases located : disk.locate path with
  | error fault =>
      rw [writeFile, run_bind, run_get] at failed
      simp only [located] at failed
      obtain ⟨failure, rfl⟩ := Prod.mk.inj failed
      obtain rfl := Except.error.inj failure
      exact ⟨rfl, Or.inl rfl⟩
  | ok place =>
      by_cases found : disk.entryAt? place = some .directory
      · rw [writeFile, run_bind, run_get] at failed
        simp only [located, found] at failed
        obtain ⟨failure, rfl⟩ := Prod.mk.inj failed
        obtain rfl := Except.error.inj failure
        exact ⟨rfl, Or.inr ⟨rfl, place, rfl, found⟩⟩
      · rw [writeFile_of_locate located found] at failed
        cases failed

theorem write_eq_error (failed : (write path text).run disk = (.error error, later)) :
    Obstructs later path error.fault := by
  obtain ⟨root, parts⟩ := path
  rw [write, run_bind] at failed
  -- Once its directories are made only the last name can fail; otherwise something is in the way above it.
  rcases makeDirectories_run root parts.dropLast disk with ⟨middle, made, there⟩ |
    ⟨error, middle, made, deep, _, blocked⟩
  · rw [Path.parent, made] at failed
    obtain ⟨rfl, nowhere | ⟨isDirectory, place, located, found⟩⟩ := writeFile_eq_error failed
    · by_cases empty : parts = []
      · rw [empty, locate_start] at nowhere
        cases nowhere
      · have split := List.dropLast_concat_getLast empty
        refine ((obstructs_of_locate nowhere).resolve_left ?_).1
        intro missing
        rw [← split, missing] at nowhere
        exact there.not_missing nowhere
    · rw [isDirectory]
      exact .directory located found
  · rw [Path.parent, made] at failed
    obtain ⟨failure, rfl⟩ := Prod.mk.inj failed
    obtain rfl := Except.error.inj failure
    have full : parts ≠ [] := by
      rintro rfl
      exact deep rfl
    have blocked := blocked (parts.getLast full)
    rw [List.dropLast_concat_getLast full] at blocked
    exact blocked

theorem exists_error_of_obstructs (obstructs : Obstructs disk path fault) (text : String) :
    ∃ error later, (write path text).run disk = (.error error, later) := by
  rcases write_run path text disk with ⟨error, later, failed, _⟩ | ⟨later, ran, wrote⟩
  · exact ⟨error, later, failed⟩
  · obtain ⟨place, located, found⟩ := wrote.exists_file
    exact absurd (obstructs.of_grows wrote.grows wrote.keeps)
      (not_obstructs located (fileAt?_eq_some_iff.mp found))

theorem write_over (located : disk.locate path = .ok place) (found : disk.fileAt? place = some bytes) :
    (write path text).run disk = (.ok (), disk.put place (.file text.toUTF8)) := by
  obtain ⟨root, parts⟩ := path
  have isFile := fileAt?_eq_some_iff.mp found
  have full : parts ≠ [] := by
    rintro rfl
    obtain rfl := Except.ok.inj (located.symm.trans (locate_start disk root))
    rw [entryAt?_startOf] at isFile
    cases isFile
  have there : LeadsToDirectory disk ⟨root, parts.dropLast⟩ := by
    rw [← List.dropLast_concat_getLast full] at located
    obtain ⟨above, leads, isDirectory, _⟩ := exists_follow_of_locate located
    exact ⟨above, leads, isDirectory⟩
  rw [write, run_bind, Path.parent, makeDirectories_of_leadsToDirectory there]
  apply writeFile_of_locate located
  intro isDirectory
  rw [isFile] at isDirectory
  cases isDirectory

end Disk

end TreeExport
