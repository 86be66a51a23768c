import TreeExport.Disk
import TreeExport.Proofs.Outcome
import TreeExport.Proofs.Path
import Mathlib.Logic.Basic

/-!
What writing does to a disk. Directories are made but never removed, so a path that leads somewhere still
leads there afterwards, and each write changes one file and no other.
-/

namespace TreeExport

namespace Disk

variable {disk middle later : Disk} {place other : Place} {path : Path}

def fileAt? (disk : Disk) (place : Place) : Option ByteArray :=
  match disk.entryAt? place with
  | some (.file bytes) => some bytes
  | _ => none

/-! ### Places -/

theorem lookup_filter (entries : List (Place × Entry)) (place other : Place) :
    (entries.filter fun old => old.1 != place).lookup other =
      if other = place then none else entries.lookup other := by
  induction entries with
  | nil => simp
  | cons first rest ih =>
      obtain ⟨here, entry⟩ := first
      by_cases same : here = place
      · rw [List.filter_cons_of_neg (by simp [same]), ih]
        by_cases equal : other = place
        · rw [if_pos equal, if_pos equal]
        · have different : (other == here) = false := by simpa [same] using equal
          rw [if_neg equal, if_neg equal, List.lookup_cons, different]
      · rw [List.filter_cons_of_pos (by simpa using same), List.lookup_cons, List.lookup_cons, ih]
        by_cases equal : other = here
        · subst equal
          simp [same]
        · have different : (other == here) = false := by simpa using equal
          rw [different]

theorem lookup_put (disk : Disk) (place other : Place) (entry : Entry) :
    (disk.put place entry).entries.lookup other =
      if other = place then some entry else disk.entries.lookup other := by
  rw [put, List.lookup_append, lookup_filter]
  by_cases same : other = place
  · simp [same]
  · have different : (other == place) = false := by simpa using same
    simp [same, different, List.lookup_cons]

theorem entryAt?_put (free : disk.entryAt? place ≠ some .directory) (entry : Entry) (other : Place) :
    (disk.put place entry).entryAt? other = if other = place then some entry else disk.entryAt? other := by
  by_cases fixed : (other.all (· == "..") || other == ["/"]) = true
  · have different : other ≠ place := by
      rintro rfl
      exact free (by rw [entryAt?, if_pos fixed])
    rw [entryAt?, entryAt?, if_pos fixed, if_pos fixed, if_neg different]
  · rw [entryAt?, entryAt?, if_neg fixed, if_neg fixed, lookup_put]

theorem fileAt?_put_file (free : disk.entryAt? place ≠ some .directory) (bytes : ByteArray) (other : Place) :
    (disk.put place (.file bytes)).fileAt? other =
      if other = place then some bytes else disk.fileAt? other := by
  rw [fileAt?, entryAt?_put free]
  by_cases same : other = place
  · rw [if_pos same, if_pos same]
  · rw [if_neg same, if_neg same, fileAt?]

theorem fileAt?_put_directory (free : disk.entryAt? place = none) (other : Place) :
    (disk.put place .directory).fileAt? other = disk.fileAt? other := by
  rw [fileAt?, entryAt?_put (by rw [free]; exact nofun)]
  by_cases same : other = place
  · rw [if_pos same, same, fileAt?, free]
  · rw [if_neg same, fileAt?]

/-! ### Growth -/

def Grows (disk later : Disk) : Prop :=
  ∀ place, disk.entryAt? place = some .directory → later.entryAt? place = some .directory

structure Extends (disk later : Disk) : Prop where
  grows : Grows disk later
  files : ∀ place, later.fileAt? place = disk.fileAt? place

theorem Grows.refl (disk : Disk) : Grows disk disk :=
  fun _ isDirectory => isDirectory

theorem Grows.trans (first : Grows disk middle) (second : Grows middle later) : Grows disk later :=
  fun place isDirectory => second place (first place isDirectory)

theorem grows_put (free : disk.entryAt? place ≠ some .directory) (entry : Entry) :
    Grows disk (disk.put place entry) := by
  intro other isDirectory
  have different : other ≠ place := by
    rintro rfl
    exact free isDirectory
  rw [entryAt?_put free, if_neg different, isDirectory]

theorem Extends.refl (disk : Disk) : Extends disk disk :=
  ⟨.refl disk, fun _ => rfl⟩

theorem Extends.trans (first : Extends disk middle) (second : Extends middle later) : Extends disk later :=
  ⟨first.grows.trans second.grows, fun place => (second.files place).trans (first.files place)⟩

theorem extends_put_directory (free : disk.entryAt? place = none) :
    Extends disk (disk.put place .directory) :=
  ⟨grows_put (by rw [free]; exact nofun) _, fileAt?_put_directory free⟩

/-! ### Paths -/

def HasZero (names : List String) : Prop := ∃ name ∈ names, '\x00' ∈ name.toList

structure Passable (path : Path) : Prop where
  clean : ¬HasZero path.names
  short : path.toString.utf8ByteSize < pathLimit

theorem Passable.of_append {root : PathRoot} {upper lower : List PathName}
    (passable : Passable ⟨root, upper ++ lower⟩) : Passable ⟨root, upper⟩ where
  clean := by
    rintro ⟨name, member, zero⟩
    exact passable.clean ⟨name, by rw [Path.names_append]; exact List.mem_append_left _ member, zero⟩
  short := Nat.lt_of_le_of_lt (Path.utf8ByteSize_toString_le root upper lower) passable.short

theorem locate_of_hasZero (zero : HasZero path.names) : disk.locate path = .error .zeroCharacter := by
  obtain ⟨name, member, inside⟩ := zero
  rw [locate, if_pos]
  exact List.any_eq_true.mpr ⟨name, member, List.contains_iff_mem.mpr inside⟩

theorem not_any_contains {names : List String} (clean : ¬HasZero names) :
    ¬(names.any fun name => name.toList.contains '\x00') = true := by
  intro zero
  obtain ⟨name, member, inside⟩ := List.any_eq_true.mp zero
  exact clean ⟨name, member, List.contains_iff_mem.mp inside⟩

theorem locate_of_long (clean : ¬HasZero path.names) (long : pathLimit ≤ path.toString.utf8ByteSize) :
    disk.locate path = .error .longName := by
  rw [locate, if_neg (not_any_contains clean), if_pos long]

theorem locate_of_passable (passable : Passable path) :
    disk.locate path = path.names.foldlM disk.follow (startOf path.root) := by
  rw [locate, if_neg (not_any_contains passable.clean), if_neg (Nat.not_le_of_lt passable.short)]

theorem passable_of_locate (located : disk.locate path = .ok place) : Passable path := by
  by_cases zero : HasZero path.names
  · exact absurd ((locate_of_hasZero zero).symm.trans located) nofun
  · refine ⟨zero, Nat.lt_of_not_le fun long => ?_⟩
    exact absurd ((locate_of_long zero long).symm.trans located) nofun

theorem follow_of_grows {name : String} (grows : Grows disk later)
    (followed : disk.follow place name = .ok other) : later.follow place name = .ok other := by
  rw [follow] at followed ⊢
  split at followed
  · exact absurd followed nofun
  · exact absurd followed nofun
  · rename_i isDirectory
    rw [grows place isDirectory]
    exact followed

theorem foldlM_follow_of_grows {names : List String} (grows : Grows disk later)
    (followed : names.foldlM disk.follow place = .ok other) :
    names.foldlM later.follow place = .ok other := by
  induction names generalizing place with
  | nil => exact followed
  | cons name names ih =>
      rw [List.foldlM_cons] at followed ⊢
      obtain ⟨next, first, rest⟩ := exists_of_bind_eq_ok followed
      rw [bind_of_eq_ok (follow_of_grows grows first)]
      exact ih rest

theorem locate_of_grows (grows : Grows disk later) (located : disk.locate path = .ok place) :
    later.locate path = .ok place := by
  have passable := passable_of_locate located
  rw [locate_of_passable passable] at located ⊢
  exact foldlM_follow_of_grows grows located

theorem read_of_fileAt? {bytes : ByteArray} (located : disk.locate path = .ok place)
    (found : disk.fileAt? place = some bytes) : disk.read path = .ok bytes := by
  rw [fileAt?] at found
  split at found
  · rename_i here
    obtain rfl := Option.some.inj found
    simp only [read, located, here]
  · exact absurd found nofun

theorem foldlM_follow_inside {names : List String} (inside : ".." ∉ names)
    (followed : names.foldlM disk.follow place = .ok other) : other = place ++ names := by
  induction names generalizing place with
  | nil => rw [List.append_nil]; exact (Except.ok.inj followed).symm
  | cons name names ih =>
      rw [List.foldlM_cons] at followed
      obtain ⟨next, first, rest⟩ := exists_of_bind_eq_ok followed
      rw [List.mem_cons, not_or] at inside
      have step : next = place ++ [name] := by
        rw [follow] at first
        split at first
        · exact absurd first nofun
        · exact absurd first nofun
        · rw [if_neg (Ne.symm inside.1)] at first
          split at first
          · exact absurd first nofun
          · exact (Except.ok.inj first).symm
      rw [ih inside.2 rest, step, List.append_assoc]
      rfl

theorem exists_of_locate_join {base next : Path} (relative : next.root = .none)
    (inside : ".." ∉ next.names) (located : disk.locate (base.join next) = .ok place) :
    ∃ above, disk.locate base = .ok above ∧ place = above ++ next.names := by
  have joined : base.join next = ⟨base.root, base.parts ++ next.parts⟩ := by
    rw [Path.join, relative]
  rw [joined] at located
  have passable := passable_of_locate located
  rw [locate_of_passable passable, Path.names_append, List.foldlM_append] at located
  obtain ⟨above, first, rest⟩ := exists_of_bind_eq_ok located
  exact ⟨above, (locate_of_passable passable.of_append).trans first, foldlM_follow_inside inside rest⟩

end Disk

end TreeExport
