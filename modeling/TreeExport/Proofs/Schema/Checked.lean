import TreeExport.Schema.Record
import Mathlib.Logic.Basic

/-!
When checks of values succeed. Checks collect issues instead of stopping at the first one, so a check of
several values is valid exactly if each of them is.
-/

namespace TreeExport

namespace Schema

namespace Checked

variable {α β : Type}

def IsValid (checked : Checked α) : Prop :=
  ∃ value, checked = .valid value

section

variable {checked : Checked α} {f : Checked (α → β)} {place : Place} {record : String}

theorem isValid_valid (value : α) : (valid value).IsValid :=
  ⟨value, rfl⟩

theorem not_isValid_problem (failed : Problem) : ¬ (problem failed : Checked α).IsValid :=
  nofun

theorem isValid_map (change : α → β) : (change <$> checked).IsValid ↔ checked.IsValid := by
  cases checked with
  | valid value => exact iff_of_true (isValid_valid _) (isValid_valid _)
  | invalid issues => exact iff_of_false nofun nofun

theorem isValid_seq : (f <*> checked).IsValid ↔ f.IsValid ∧ checked.IsValid := by
  cases f with
  | valid change =>
      cases checked with
      | valid value => exact iff_of_true (isValid_valid _) ⟨isValid_valid _, isValid_valid _⟩
      | invalid issues => exact iff_of_false nofun nofun
  | invalid issues =>
      cases checked with
      | valid value => exact iff_of_false nofun nofun
      | invalid more => exact iff_of_false nofun nofun

theorem isValid_within : (checked.within place).IsValid ↔ checked.IsValid := by
  cases checked with
  | valid value => exact iff_of_true (isValid_valid _) (isValid_valid _)
  | invalid issues => exact iff_of_false nofun nofun

theorem map_eq_valid_iff {change : α → β} {result : β} :
    change <$> checked = .valid result ↔ ∃ value, checked = .valid value ∧ change value = result := by
  cases checked with
  | valid value =>
      show valid (change value) = .valid result ↔ _
      simp
  | invalid issues => exact iff_of_false nofun nofun

theorem seq_eq_valid_iff {result : β} :
    f <*> checked = .valid result ↔
      ∃ change, f = .valid change ∧ ∃ value, checked = .valid value ∧ change value = result := by
  cases f with
  | valid change =>
      cases checked with
      | valid value =>
          show valid (change value) = .valid result ↔ _
          simp
      | invalid issues => exact iff_of_false nofun nofun
  | invalid issues =>
      cases checked with
      | valid value => exact iff_of_false nofun nofun
      | invalid more => exact iff_of_false nofun nofun

theorem within_eq_valid_iff {value : α} :
    checked.within place = .valid value ↔ checked = .valid value := by
  cases checked <;> simp [within]

theorem andThen_eq_valid_iff {next : α → Checked β} {result : β} :
    checked.andThen next = .valid result ↔ ∃ value, checked = .valid value ∧ next value = .valid result := by
  cases checked <;> simp [andThen]

theorem ensure_eq_valid_iff {test : α → Bool} {failed : Problem} {value : α} :
    checked.ensure test failed = .valid value ↔ checked = .valid value ∧ test value = true := by
  rw [ensure, andThen_eq_valid_iff]
  constructor
  · rintro ⟨other, given, kept⟩
    split at kept
    · rename_i passed
      obtain rfl : other = value := by injection kept
      exact ⟨given, passed⟩
    · exact absurd kept nofun
  · rintro ⟨given, passed⟩
    exact ⟨value, given, if_pos passed⟩

theorem named_eq_ok_iff {value : α} : checked.named record = .ok value ↔ checked = .valid value := by
  cases checked <;> simp [named]

theorem exists_named_eq_ok : (∃ value, checked.named record = .ok value) ↔ checked.IsValid := by
  cases checked with
  | valid value => exact iff_of_true ⟨value, rfl⟩ (isValid_valid _)
  | invalid issues => exact iff_of_false nofun nofun

end

theorem isValid_all {checks : List (Checked α)} :
    (all checks).IsValid ↔ ∀ checked ∈ checks, checked.IsValid := by
  induction checks with
  | nil => exact iff_of_true (isValid_valid _) nofun
  | cons first rest ih => rw [all, isValid_seq, isValid_map, ih, List.forall_mem_cons]

end Checked

theorem fieldsOf_eq_valid {origin : Origin} {record : String} {value : Value}
    {entries : List (Value × Value)} (read : fieldsOf origin record value = .valid entries) :
    value = .map entries := by
  unfold fieldsOf at read
  split at read
  · injection read with same
    rw [same]
  · simp [Checked.problem] at read

section Fields

variable {α : Type} {entries : List (Value × Value)} {name : String} {default field : α}
  {read : Value → Checked α}

theorem optional_eq_within {value : Value} (found : Value.lookup? entries name = some value) :
    optional entries name default read = (read value).within (.name name) := by
  rw [optional, found]

theorem optional_of_valid {value : Value} (found : Value.lookup? entries name = some value)
    (valid : read value = .valid field) : optional entries name default read = .valid field := by
  rw [optional_eq_within found, valid]
  rfl

theorem optional_eq_valid (valid : optional entries name default read = .valid field) :
    field = default ∨ ∃ value, read value = .valid field := by
  rw [optional] at valid
  split at valid
  · rename_i value found
    exact Or.inr ⟨value, Checked.within_eq_valid_iff.mp valid⟩
  · injection valid with same
    exact Or.inl same.symm

end Fields

def HasText (value : Value) : Prop :=
  ∃ content, textOf? value = some (some content)

theorem isValid_text {value : Value} : (text value).IsValid ↔ HasText value := by
  rw [text, HasText]
  cases textOf? value with
  | none => exact iff_of_false (Checked.not_isValid_problem _) nofun
  | some content =>
      cases content with
      | none => exact iff_of_false (Checked.not_isValid_problem _) nofun
      | some content => exact iff_of_true (Checked.isValid_valid _) ⟨content, rfl⟩

theorem isValid_mapOf {α : Type} {origin : Origin} {item : Value → Checked α}
    {entries : List (Value × Value)} :
    (mapOf origin item (.map entries)).IsValid ↔
      ∀ entry ∈ entries, HasText entry.1 ∧ (item entry.2).IsValid := by
  rw [mapOf]
  simp only [Checked.isValid_map, Checked.isValid_all, List.forall_mem_map, Checked.isValid_seq,
    Checked.isValid_within, isValid_text]

end Schema

end TreeExport
