import TreeExport.Proofs.Command.Reporting
import TreeExport.Proofs.Disk.Reading
import TreeExport.Proofs.Yaml.Reading

/-!
Every file holds a mapping, or fails with a fault of a value, or is YAML in which a scalar fails in a way that is
not looked for. A text shows the last: it has the mark of a tag, a backslash, or a number to base sixty with more
places than a number has room for.
-/

namespace TreeExport

namespace Document

/-- The failures that are faults of a value: a path or a text that is none, wrong JSON or YAML, a scalar out of
range, and anything but a mapping. -/
def Error.IsOfValue : Error → Prop
  | .unreadable (.disk cause) => cause.fault = .zeroCharacter
  | .yaml _ cause => ¬ cause.IsUnguarded
  | _ => True

variable {disk : Disk} {path : Path} {place : Disk.Place} {bytes : ByteArray} {text : String} {cause : Error}
  {fault : Yaml.Error}

theorem read_of_file (located : disk.locate path = .ok place) (file : disk.entryAt? place = some (.file bytes)) :
    disk.read path = .ok bytes := by
  rw [Disk.read, located]
  dsimp only
  rw [file]

theorem exists_encoding_of_unreadable {unread : Disk.TextError} (read : disk.read path = .ok bytes)
    (failed : disk.readText path = .error unread) : ∃ wrong, unread = .encoding wrong := by
  rw [Disk.readText, read, mapError_ok, bind_of_eq_ok rfl] at failed
  rcases bind_eq_error_iff.mp failed with undecoded | ⟨_, _, done⟩
  · obtain ⟨wrong, _, same⟩ := mapError_eq_error_iff.mp undecoded
    exact ⟨wrong, same.symm⟩
  · cases done

theorem exists_fault_of_readValue (failed : readValue path text = .error cause) (other : ¬ cause.IsOfValue) :
    isYaml path ∧ ∃ fault, Yaml.read text = .error fault ∧ cause = .yaml path fault ∧ fault.IsUnguarded ∧
      fault.Within text.toList := by
  rw [readValue] at failed
  split at failed
  · rename_i yaml
    obtain ⟨fault, wrong, rfl⟩ := mapError_eq_error_iff.mp failed
    have within := Yaml.yields_read text
    rw [wrong] at within
    exact ⟨yaml, fault, wrong, rfl, not_not.mp other, within⟩
  · obtain ⟨wrong, _, rfl⟩ := mapError_eq_error_iff.mp failed
    exact absurd trivial other

theorem exists_fault_of_load (read : disk.read path = .ok bytes) (failed : load disk path = .error cause)
    (other : ¬ cause.IsOfValue) :
    isYaml path ∧ ∃ text fault, disk.readText path = .ok text ∧ Yaml.read text = .error fault ∧
      cause = .yaml path fault ∧ fault.IsUnguarded ∧ fault.Within text.toList := by
  rw [load] at failed
  rcases bind_eq_error_iff.mp failed with unreadable | ⟨text, found, failed⟩
  · obtain ⟨unread, stopped, rfl⟩ := mapError_eq_error_iff.mp unreadable
    obtain ⟨wrong, rfl⟩ := exists_encoding_of_unreadable read stopped
    exact absurd trivial other
  · rcases bind_eq_error_iff.mp failed with wrong | ⟨value, _, failed⟩
    · obtain ⟨yaml, fault, unread, same, unguarded, within⟩ := exists_fault_of_readValue wrong other
      exact ⟨yaml, text, fault, mapError_eq_ok found, unread, same, unguarded, within⟩
    · split at failed
      · cases failed
      · obtain rfl := Except.error.inj failed
        exact absurd trivial other

/-- Every file holds a mapping, fails with a fault of a value, or is YAML with a fault of a scalar that its text
shows. -/
theorem load_settles (located : disk.locate path = .ok place)
    (file : disk.entryAt? place = some (.file bytes)) :
    (∃ entries, load disk path = .ok entries) ∨
    (∃ cause, load disk path = .error cause ∧ cause.IsOfValue) ∨
    (isYaml path ∧ ∃ text fault, disk.readText path = .ok text ∧ Yaml.read text = .error fault ∧
      load disk path = .error (.yaml path fault) ∧ fault.IsUnguarded ∧ fault.Within text.toList) := by
  cases outcome : load disk path with
  | ok entries => exact Or.inl ⟨entries, rfl⟩
  | error cause =>
      refine Or.inr ?_
      by_cases ofValue : cause.IsOfValue
      · exact Or.inl ⟨cause, rfl, ofValue⟩
      · obtain ⟨yaml, text, fault, found, wrong, rfl, unguarded, within⟩ :=
          exists_fault_of_load (read_of_file located file) outcome ofValue
        exact Or.inr ⟨yaml, text, fault, found, wrong, rfl, unguarded, within⟩

def taggedDisk : Disk := ⟨[(["a.yaml"], .file "a: !!bool maybe\n".toUTF8)]⟩

theorem load_settles_tagged : taggedDisk.locate (.ofString "a.yaml") = .ok ["a.yaml"] ∧
    ((∃ entries, load taggedDisk (.ofString "a.yaml") = .ok entries) ∨
    (∃ cause, load taggedDisk (.ofString "a.yaml") = .error cause ∧ cause.IsOfValue) ∨
    (isYaml (.ofString "a.yaml") ∧ ∃ text fault, taggedDisk.readText (.ofString "a.yaml") = .ok text ∧
      Yaml.read text = .error fault ∧
      load taggedDisk (.ofString "a.yaml") = .error (.yaml (.ofString "a.yaml") fault) ∧
      fault.IsUnguarded ∧ fault.Within text.toList)) :=
  ⟨rfl, load_settles rfl rfl⟩

/-- A word that is no boolean fails otherwise than by a fault of a value. -/
theorem load_fails_of_unknown_boolean :
    ¬ ∀ (disk : Disk) (path : Path) (place : Disk.Place) (bytes : ByteArray),
      disk.locate path = .ok place → disk.entryAt? place = some (.file bytes) →
        (∃ entries, load disk path = .ok entries) ∨
          ∃ cause, load disk path = .error cause ∧ cause.IsOfValue := by
  intro claimed
  have read : taggedDisk.readText (.ofString "a.yaml") = .ok "a: !!bool maybe\n" := by
    rw [Disk.readText, read_of_file rfl rfl, mapError_ok, bind_of_eq_ok rfl, Text.decodeUtf8_toUTF8, mapError_ok,
      bind_of_eq_ok rfl, Text.universalNewlines_of_not_mem (by decide), String.ofList_toList]
    rfl
  have unknown : Yaml.read "a: !!bool maybe\n" = .error (.unknownBoolean "maybe") := by
    have fails : (do return (fun _ => ()) (← Yaml.read "a: !!bool maybe\n")) =
        Except.error (.unknownBoolean "maybe") := by decide +kernel
    exact bind_pure_eq_error_iff.mp fails
  have failed : load taggedDisk (.ofString "a.yaml") =
      .error (.yaml (.ofString "a.yaml") (.unknownBoolean "maybe")) := by
    rw [load, read, mapError_ok, bind_of_eq_ok rfl, readValue, if_pos (by decide), unknown]
    rfl
  rcases claimed taggedDisk (.ofString "a.yaml") _ _ rfl rfl with ⟨entries, loaded⟩ | ⟨cause, other, ofValue⟩
  · rw [failed] at loaded
    cases loaded
  · rw [failed] at other
    obtain rfl := Except.error.inj other
    exact ofValue trivial

end Document

end TreeExport
