import TreeExport.Config.Reading
import TreeExport.Proofs.Outcome
import TreeExport.Proofs.Schema.Checked

/-!
The bounds of settings. Settings that were read from a value or from an environment are within them, whether
a field was given or has its default.
-/

namespace TreeExport

open Schema

namespace Config

structure Bounded (config : Config) : Prop where
  depth : 1 ≤ config.generator.maxDepth
  timeout : (Binary64.zero false).lt config.providers.timeout = true
  perPage : 1 ≤ config.providers.githubPerPage ∧ config.providers.githubPerPage ≤ ProviderConfig.perPageLimit

theorem one_le_of_checkDepth {depth : Checked Int} {value : Int}
    (valid : GeneratorConfig.checkDepth depth = .valid value) : 1 ≤ value := by
  obtain ⟨_, bound⟩ := Checked.ensure_eq_valid_iff.mp valid
  simpa using bound

theorem lt_of_checkTimeout {timeout : Checked Binary64} {value : Binary64}
    (valid : ProviderConfig.checkTimeout timeout = .valid value) :
    (Binary64.zero false).lt value = true :=
  (Checked.ensure_eq_valid_iff.mp valid).2

theorem bounds_of_checkPerPage {count : Checked Int} {value : Int}
    (valid : ProviderConfig.checkPerPage count = .valid value) :
    1 ≤ value ∧ value ≤ ProviderConfig.perPageLimit := by
  obtain ⟨lower, above⟩ := Checked.ensure_eq_valid_iff.mp valid
  obtain ⟨_, below⟩ := Checked.ensure_eq_valid_iff.mp lower
  exact ⟨by simpa using below, by simpa using above⟩

theorem bounded_default : Bounded default :=
  ⟨by decide, by decide +kernel, by decide⟩

section Checks

variable {origin : Origin} {value : Value}

theorem one_le_of_check {generator : GeneratorConfig}
    (valid : GeneratorConfig.check origin value = .valid generator) : 1 ≤ generator.maxDepth := by
  obtain ⟨entries, _, valid⟩ := Checked.andThen_eq_valid_iff.mp valid
  obtain ⟨change, first, strict, _, rfl⟩ := Checked.seq_eq_valid_iff.mp valid
  obtain ⟨depth, checked, rfl⟩ := Checked.map_eq_valid_iff.mp first
  rcases optional_eq_valid checked with rfl | ⟨given, checked⟩
  · exact bounded_default.depth
  · exact one_le_of_checkDepth checked

theorem bounds_of_check {providers : ProviderConfig}
    (valid : ProviderConfig.check origin value = .valid providers) :
    (Binary64.zero false).lt providers.timeout = true ∧
      1 ≤ providers.githubPerPage ∧ providers.githubPerPage ≤ ProviderConfig.perPageLimit := by
  obtain ⟨entries, _, valid⟩ := Checked.andThen_eq_valid_iff.mp valid
  obtain ⟨_, fields, perPage, counted, made⟩ := Checked.seq_eq_valid_iff.mp valid
  obtain ⟨_, fields, language, _, tongued⟩ := Checked.seq_eq_valid_iff.mp fields
  obtain ⟨_, fields, city, _, placed⟩ := Checked.seq_eq_valid_iff.mp fields
  obtain ⟨_, fields, ids, _, listed⟩ := Checked.seq_eq_valid_iff.mp fields
  obtain ⟨timeout, timed, first⟩ := Checked.map_eq_valid_iff.mp fields
  subst first listed placed tongued made
  constructor
  · rcases optional_eq_valid timed with rfl | ⟨given, checked⟩
    · exact bounded_default.timeout
    · exact lt_of_checkTimeout checked
  · rcases optional_eq_valid counted with rfl | ⟨given, checked⟩
    · exact bounded_default.perPage
    · exact bounds_of_checkPerPage checked

theorem bounded_of_ofValue {config : Config} (accepted : ofValue value = .ok config) : Bounded config := by
  have valid := Checked.named_eq_ok_iff.mp accepted
  obtain ⟨entries, _, valid⟩ := Checked.andThen_eq_valid_iff.mp valid
  obtain ⟨_, fields, providers, provided, made⟩ := Checked.seq_eq_valid_iff.mp valid
  obtain ⟨_, fields, generator, generated, tuned⟩ := Checked.seq_eq_valid_iff.mp fields
  obtain ⟨_, fields, directory, _, placed⟩ := Checked.seq_eq_valid_iff.mp fields
  obtain ⟨name, _, first⟩ := Checked.map_eq_valid_iff.mp fields
  subst first placed tuned made
  have depth : 1 ≤ generator.maxDepth := by
    rcases optional_eq_valid generated with rfl | ⟨given, checked⟩
    · exact bounded_default.depth
    · exact one_le_of_check checked
  rcases optional_eq_valid provided with rfl | ⟨given, checked⟩
  · exact ⟨depth, bounded_default.timeout, bounded_default.perPage⟩
  · have bounds := bounds_of_check checked
    exact ⟨depth, bounds.1, bounds.2⟩

end Checks

theorem bounded_of_ofEnvironment {environment : Keyed String} {config : Config}
    (accepted : ofEnvironment environment = .ok config) : Bounded config := by
  obtain ⟨depth?, _, accepted⟩ := exists_of_bind_eq_ok accepted
  obtain ⟨timeout?, _, accepted⟩ := exists_of_bind_eq_ok accepted
  obtain ⟨depth, deep, accepted⟩ := exists_of_bind_eq_ok accepted
  obtain ⟨timeout, timed, accepted⟩ := exists_of_bind_eq_ok accepted
  have deep := Checked.within_eq_valid_iff.mp (Checked.named_eq_ok_iff.mp (mapError_eq_ok deep))
  have timed := Checked.within_eq_valid_iff.mp (Checked.named_eq_ok_iff.mp (mapError_eq_ok timed))
  have same := Except.ok.inj accepted
  subst same
  exact ⟨one_le_of_checkDepth deep, lt_of_checkTimeout timed, bounded_default.perPage⟩

end Config

end TreeExport
