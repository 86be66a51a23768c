import TreeExport.Proofs.Config.Bounds
import TreeExport.Proofs.Config.Stored
import TreeExport.Proofs.Disk.Reading
import TreeExport.Proofs.Path

/-!
Settings that are saved and loaded again. What a file keeps of them is a value of its own kind, and the
bounds that the settings were accepted with are checked once more when it is read; so all settings come back
unless their time limit is infinite or an integer has too many digits.
-/

namespace TreeExport

open Schema

namespace Config

/-! ### What a file keeps -/

def savedNumber : Binary64 → Value
  | .finite x => .float (.finite x)
  | _ => .null

def savedLanguage : Option String → Stored × Value
  | none => (.scalar "null".toList, .null)
  | some language => (.text language, .text language)

def savedIds (ids : List String) : Stored × Value :=
  (.list (ids.map fun id => Literal.quote id.toList), .list (ids.map .text))

abbrev Fields := List (String × Stored × Value)

def Fields.record (fields : Fields) : Stored × Value :=
  (.record (fields.map fun field => (field.1, field.2.1)),
    .ofKeyed (fields.map fun field => (field.1, field.2.2)))

def generatorFields (generator : GeneratorConfig) : Fields := [
  ("max_depth", .scalar (Value.integerText generator.maxDepth), .int generator.maxDepth),
  ("strict", .scalar (if generator.strict then "true" else "false").toList, .bool generator.strict)]

def providerFields (providers : ProviderConfig) : Fields := [
  ("timeout", .scalar (providers.timeout.render .saved), savedNumber providers.timeout),
  ("crypto_ids", savedIds providers.cryptoIds),
  ("weather_city", .text providers.weatherCity, .text providers.weatherCity),
  ("github_language", savedLanguage providers.githubLanguage),
  ("github_per_page", .scalar (Value.integerText providers.githubPerPage), .int providers.githubPerPage)]

def fields (config : Config) : Fields := [
  ("project_name", .text config.projectName, .text config.projectName),
  ("output_dir", .text config.outputDir.toString, .text config.outputDir.toString),
  ("generator", (generatorFields config.generator).record),
  ("providers", (providerFields config.providers).record)]

def Fields.entries (fields : Fields) : List (Value × Value) :=
  fields.map fun field => (.text field.1, field.2.2)

theorem Fields.record_eq (fields : Fields) : fields.record.2 = .map fields.entries := by
  rw [record, entries, Value.ofKeyed, List.map_map]
  rfl

def saved (config : Config) : Value := config.fields.record.2

theorem stored_eq (config : Config) : config.stored = config.fields.record.1 := by
  obtain ⟨_, _, _, ⟨_, _, _, language, _⟩⟩ := config
  cases language <;> rfl

theorem reads_savedNumber {timeout : Binary64} (above : (Binary64.zero false).lt timeout = true) :
    Json.Reads (timeout.render .saved) (savedNumber timeout) := by
  cases timeout with
  | nan => exact Json.reads_null
  | infinite negative =>
      cases negative with
      | false => exact Json.reads_null
      | true => exact absurd above (by decide)
  | finite x => exact Json.reads_render .saved x

namespace Stored

theorem stands_text (value : String) : Stands (text value) (.text value) :=
  .scalar (Json.reads_quote value)

theorem stands_savedIds (ids : List String) : Stands (savedIds ids).1 (savedIds ids).2 := by
  have each : ∀ item ∈ ids.map fun id => (Literal.quote id.toList, Value.text id),
      Json.Reads item.1 item.2 := by
    intro item inside
    obtain ⟨id, _, rfl⟩ := List.mem_map.mp inside
    exact Json.reads_quote id
  have stands := Stands.list _ each
  rw [List.map_map, List.map_map] at stands
  exact stands

theorem stands_savedLanguage (language : Option String) :
    Stands (savedLanguage language).1 (savedLanguage language).2 := by
  cases language with
  | none => exact .scalar Json.reads_null
  | some language => exact stands_text language

theorem printed_of_all {text : List Char} (visible : text.all (fun c => 0x20 ≤ c.toNat) = true) :
    Printed (.scalar text) :=
  .scalar fun c inside => of_decide_eq_true (List.all_eq_true.mp visible c inside)

theorem printed_text (value : String) : Printed (text value) :=
  .scalar fun _ => Json.le_toNat_of_mem_quote

theorem printed_savedIds (ids : List String) : Printed (savedIds ids).1 := by
  refine .list ?_
  intro item inside
  obtain ⟨id, _, rfl⟩ := List.mem_map.mp inside
  exact fun _ => Json.le_toNat_of_mem_quote

theorem printed_savedLanguage (language : Option String) : Printed (savedLanguage language).1 := by
  cases language with
  | none => exact printed_of_all (by decide)
  | some language => exact printed_text language

theorem printed_integer (n : Int) : Printed (.scalar (Value.integerText n)) :=
  .scalar fun _ inside => (Numeral.isPlain_of_mem_integerText inside).le_toNat

theorem printed_number (x : Binary64) : Printed (.scalar (x.render .saved)) := by
  cases x with
  | nan => exact printed_of_all (by decide)
  | infinite negative => cases negative <;> exact printed_of_all (by decide)
  | finite x => exact .scalar fun _ inside => (Numeral.isPlain_of_mem_render inside).le_toNat

end Stored

open Stored

variable {config : Config}

/-- Whether the integer of the settings that has no upper bound is short enough to be read. -/
def HasShortDepth (config : Config) : Prop :=
  (Nat.toDigits 10 config.generator.maxDepth.natAbs).length ≤ Json.digitLimit

instance (config : Config) : Decidable config.HasShortDepth :=
  inferInstanceAs (Decidable (_ ≤ _))

theorem short_of_perPage (bounded : Bounded config) :
    (Nat.toDigits 10 config.providers.githubPerPage.natAbs).length ≤ Json.digitLimit := by
  have bound : config.providers.githubPerPage ≤ 100 := bounded.perPage.2
  have below : config.providers.githubPerPage.natAbs < 10 ^ 3 := by
    have := bounded.perPage.1
    omega
  have few : (Nat.toDigits 10 config.providers.githubPerPage.natAbs).length ≤ 3 :=
    (Nat.length_toDigits_le_iff (by decide) (by decide)).mpr below
  exact Nat.le_trans few (by decide)

theorem stands_generator (short : HasShortDepth config) :
    Stands (generatorFields config.generator).record.1 (generatorFields config.generator).record.2 := by
  refine .record (generatorFields config.generator) (by simp [generatorFields]) ?_
  simp only [generatorFields, List.forall_mem_cons]
  exact ⟨.scalar (Json.reads_integerText short), .scalar (Json.reads_bool _), nofun⟩

theorem stands_providers (bounded : Bounded config) :
    Stands (providerFields config.providers).record.1 (providerFields config.providers).record.2 := by
  refine .record (providerFields config.providers) (by simp [providerFields]) ?_
  simp only [providerFields, List.forall_mem_cons]
  refine ⟨.scalar (reads_savedNumber bounded.timeout), stands_savedIds _, stands_text _,
    stands_savedLanguage _, ?_, nofun⟩
  exact .scalar (Json.reads_integerText (short_of_perPage bounded))

theorem stands_saved (bounded : Bounded config) (short : HasShortDepth config) :
    Stands config.stored config.saved := by
  rw [stored_eq]
  refine .record config.fields (by simp [fields]) ?_
  simp only [fields, List.forall_mem_cons]
  exact ⟨stands_text _, stands_text _, stands_generator short, stands_providers bounded, nofun⟩

/-- The long integer comes behind two texts, and nothing is read behind it. -/
theorem refused_stored (long : ¬config.HasShortDepth) :
    Refused config.stored (.longInteger (Nat.toDigits 10 config.generator.maxDepth.natAbs).length) := by
  have scalar := Refused.scalar (Json.refuses_integerText (Nat.lt_of_not_le long))
  have generator : Refused (generatorFields config.generator).record.1 _ :=
    .record [] "max_depth" [_] nofun scalar
  have texts : ∀ field ∈ [("project_name", text config.projectName),
      ("output_dir", text config.outputDir.toString)], ∃ value, Stands field.2 value := by
    simp only [List.forall_mem_cons]
    exact ⟨⟨_, stands_text _⟩, ⟨_, stands_text _⟩, nofun⟩
  rw [stored_eq]
  exact .record _ "generator" [_] texts generator

theorem printed_stored (config : Config) : Printed config.stored := by
  have generator : Printed (generatorFields config.generator).record.1 := by
    refine .record ?_
    simp only [generatorFields, List.map_cons, List.forall_mem_cons]
    refine ⟨printed_integer _, printed_of_all ?_, nofun⟩
    cases config.generator.strict <;> decide
  have providers : Printed (providerFields config.providers).record.1 := by
    refine .record ?_
    simp only [providerFields, List.map_cons, List.forall_mem_cons]
    exact ⟨printed_number _, printed_savedIds _, printed_text _, printed_savedLanguage _, printed_integer _,
      nofun⟩
  rw [stored_eq]
  refine .record ?_
  simp only [fields, List.map_cons, List.forall_mem_cons]
  exact ⟨printed_text _, printed_text _, generator, providers, nofun⟩

/-! ### Reading it again -/

theorem listOf_texts (origin : Origin) (texts : List String) :
    listOf origin Schema.text (.list (texts.map .text)) = .valid texts := by
  have numbered : ∀ start, Checked.all (((texts.map Value.text).zipIdx start).map fun item =>
      (Schema.text item.1).within (.index item.2)) = .valid texts := by
    induction texts with
    | nil => exact fun _ => rfl
    | cons first others ih =>
        intro start
        rw [List.map_cons, List.zipIdx_cons, List.map_cons, Checked.all, ih]
        rfl
  exact numbered 0

theorem check_generator {generator : GeneratorConfig} (deep : 1 ≤ generator.maxDepth) :
    GeneratorConfig.check .document (generatorFields generator).record.2 = .valid generator := by
  refine Checked.andThen_eq_valid_iff.mpr ⟨_, rfl, Checked.seq_eq_valid_iff.mpr ?_⟩
  refine ⟨_, Checked.map_eq_valid_iff.mpr ⟨generator.maxDepth, ?_, rfl⟩, generator.strict, ?_, rfl⟩
  · exact optional_of_valid rfl (Checked.ensure_eq_valid_iff.mpr ⟨rfl, by simpa using deep⟩)
  · exact optional_of_valid rfl rfl

theorem check_language (language : Option String) :
    optionalText (savedLanguage language).2 = .valid language := by
  cases language <;> rfl

theorem check_perPage {count : Int} (lower : 1 ≤ count) (upper : count ≤ ProviderConfig.perPageLimit) :
    ProviderConfig.checkPerPage (integer (.int count)) = .valid count := by
  refine Checked.ensure_eq_valid_iff.mpr ⟨Checked.ensure_eq_valid_iff.mpr ⟨rfl, ?_⟩, ?_⟩
  · simpa using lower
  · simpa using upper

/-- The check of a time limit that a file keeps decides about the settings of the feeds. -/
theorem check_providers (bounded : Bounded config) :
    ProviderConfig.check .document (providerFields config.providers).record.2 =
      (fun timeout => { config.providers with timeout }) <$>
        (ProviderConfig.checkTimeout (number .document (savedNumber config.providers.timeout))).within
          (.name "timeout") := by
  let entries := (providerFields config.providers).entries
  let base : ProviderConfig := default
  have timeout : optional entries "timeout" base.timeout
      (fun value => ProviderConfig.checkTimeout (number .document value)) = _ := optional_eq_within rfl
  have ids : optional entries "crypto_ids" base.cryptoIds (listOf .document Schema.text) =
      .valid config.providers.cryptoIds := optional_of_valid rfl (listOf_texts _ _)
  have city : optional entries "weather_city" base.weatherCity Schema.text =
      .valid config.providers.weatherCity := optional_of_valid rfl rfl
  have language : optional entries "github_language" base.githubLanguage optionalText =
      .valid config.providers.githubLanguage := optional_of_valid rfl (check_language _)
  have perPage : optional entries "github_per_page" base.githubPerPage
      (fun value => ProviderConfig.checkPerPage (integer value)) = .valid config.providers.githubPerPage :=
    optional_of_valid rfl (check_perPage bounded.perPage.1 bounded.perPage.2)
  rw [Fields.record_eq, ProviderConfig.check, fieldsOf]
  show ProviderConfig.mk <$> optional entries _ _ _ <*> optional entries _ _ _ <*> optional entries _ _ _ <*>
    optional entries _ _ _ <*> optional entries _ _ _ = _
  rw [timeout, ids, city, language, perPage]
  cases (ProviderConfig.checkTimeout (number .document (savedNumber config.providers.timeout))).within
      (.name "timeout") <;> rfl

theorem check_saved (bounded : Bounded config) :
    check .document config.saved =
      (fun timeout => { config with providers := { config.providers with timeout } }) <$>
        ((ProviderConfig.checkTimeout (number .document (savedNumber config.providers.timeout))).within
          (.name "timeout")).within (.name "providers") := by
  let entries := config.fields.entries
  let base : Config := default
  have name : optional entries "project_name" base.projectName Schema.text = .valid config.projectName :=
    optional_of_valid rfl rfl
  have directory : optional entries "output_dir" base.outputDir Schema.path = .valid config.outputDir :=
    optional_of_valid rfl (congrArg Checked.valid (Path.ofString_toString _))
  have generator : optional entries "generator" base.generator (GeneratorConfig.check .document) =
      .valid config.generator := optional_of_valid rfl (check_generator bounded.depth)
  have providers : optional entries "providers" base.providers (ProviderConfig.check .document) = _ :=
    optional_eq_within rfl
  rw [saved, Fields.record_eq, check, fieldsOf]
  show Config.mk <$> optional entries _ _ _ <*> optional entries _ _ _ <*> optional entries _ _ _ <*>
    optional entries _ _ _ = _
  rw [name, directory, generator, providers, check_providers bounded]
  cases ProviderConfig.checkTimeout (number .document (savedNumber config.providers.timeout)) <;> rfl

theorem ofText_render (bounded : Bounded config) (short : config.HasShortDepth) :
    ofText config.render = (check .document config.saved).named "Config" := by
  have read : Json.read config.render = .ok config.saved := ((stands_saved bounded short).reads 0).read_eq
  rw [ofText, read]

theorem ofText_render_of_long (long : ¬config.HasShortDepth) :
    ofText config.render = .error ⟨"Config", [⟨[], .malformed⟩]⟩ := by
  have refused := ((refused_stored long).refuses 0).read_eq
  rw [ofText, render, refused]

theorem ofText_render_of_finite (bounded : Bounded config) (short : config.HasShortDepth)
    {x : Binary64.Finite} (finite : config.providers.timeout = .finite x) :
    ofText config.render = .ok config := by
  have above := bounded.timeout
  have timeout : ProviderConfig.checkTimeout (number .document (savedNumber config.providers.timeout)) =
      .valid config.providers.timeout := by
    rw [finite] at above ⊢
    exact Checked.ensure_eq_valid_iff.mpr ⟨rfl, above⟩
  rw [ofText_render bounded short, check_saved bounded, timeout]
  rfl

/-- A time limit without end is written as null, which is no number when it is read. -/
theorem ofText_render_of_infinite (bounded : Bounded config) (short : config.HasShortDepth)
    {negative : Bool} (infinite : config.providers.timeout = .infinite negative) :
    ofText config.render =
      .error ⟨"Config", [⟨[.name "providers", .name "timeout"], .number⟩]⟩ := by
  rw [ofText_render bounded short, check_saved bounded, infinite]
  rfl

theorem load_of_save {path : Path} {disk later : Disk} (ran : (config.save path).run disk = (.ok (), later)) :
    load later path = (ofText config.render).mapError .invalid := by
  have absent : '\r' ∉ config.render.toList := by
    rw [render, String.toList_ofList]
    exact (printed_stored config).carriage_not_mem_render 0
  have read := Disk.readText_of_write ran absent
  rw [load, read, mapError_ok, bind_of_eq_ok rfl]

/-- Settings that were saved come back exactly if their time limit is finite and their integer is short; and no
other settings ever come in their place. -/
theorem load_save_iff {config : Config} {path : Path} {disk later : Disk}
    (accepted : (∃ value, ofValue value = .ok config) ∨ ∃ environment, ofEnvironment environment = .ok config)
    (ran : (config.save path).run disk = (.ok (), later)) :
    (load later path = .ok config ↔ (∃ x, config.providers.timeout = .finite x) ∧ config.HasShortDepth) ∧
      ∀ loaded, load later path = .ok loaded → loaded = config := by
  have bounded : Bounded config := by
    rcases accepted with ⟨value, accepted⟩ | ⟨environment, accepted⟩
    · exact bounded_of_ofValue accepted
    · exact bounded_of_ofEnvironment accepted
  rw [load_of_save ran]
  by_cases short : config.HasShortDepth
  · -- The file is read as a value, and only the time limit in it may have become something else.
    cases timeout : config.providers.timeout with
    | nan =>
        have above := bounded.timeout
        rw [timeout] at above
        exact absurd above (by decide)
    | infinite negative =>
        rw [ofText_render_of_infinite bounded short timeout]
        simp
    | finite x =>
        rw [ofText_render_of_finite bounded short timeout, mapError_ok]
        refine ⟨iff_of_true rfl ⟨⟨x, rfl⟩, short⟩, ?_⟩
        intro loaded same
        exact (Except.ok.inj same).symm
  · rw [ofText_render_of_long short]
    simp [short]

theorem save_run_empty (config : Config) : (config.save (.ofString "c.json")).run Disk.empty =
    (.ok (), ⟨[(["c.json"], .file config.render.toUTF8)]⟩) := by
  rw [save, Disk.write]
  show ((do Disk.makeDirectories ⟨.none, []⟩; Disk.writeFile _ _) : Disk.Action Unit).run _ = _
  rw [Disk.makeDirectories]
  rfl

theorem load_save_iff_slashes :
    let config : Config := { (default : Config) with
      projectName := "a\"b\r\n"
      outputDir := .ofString "//x/y" }
    (∃ value, ofValue value = .ok config) ∧
      ∃ later, (config.save (.ofString "c.json")).run Disk.empty = (.ok (), later) ∧
        load later (.ofString "c.json") = .ok config := by
  intro config
  have accepted : ofValue (.map [(.text "project_name", .text "a\"b\r\n"),
      (.text "output_dir", .text "//x/./y")]) = .ok config := rfl
  have settled := load_save_iff (.inl ⟨_, accepted⟩) (save_run_empty config)
  exact ⟨⟨_, accepted⟩, _, save_run_empty config, settled.1.mpr ⟨⟨_, rfl⟩, by decide⟩⟩

/-- Settings that are accepted with a time limit without end are saved, but not loaded again. -/
theorem exists_load_fails :
    let config : Config := { (default : Config) with
      providers := { (default : ProviderConfig) with timeout := .infinite false } }
    (∃ value, ofValue value = .ok config) ∧
      ∃ later, (config.save (.ofString "c.json")).run Disk.empty = (.ok (), later) ∧
        load later (.ofString "c.json") =
          .error (.invalid ⟨"Config", [⟨[.name "providers", .name "timeout"], .number⟩]⟩) := by
  intro config
  have accepted : ofValue (.map [(.text "providers", .map [(.text "timeout", .float (.infinite false))])]) =
      .ok config := rfl
  have failed : ofText config.render = _ :=
    ofText_render_of_infinite (bounded_of_ofValue accepted) (by decide) rfl
  refine ⟨⟨_, accepted⟩, _, save_run_empty config, ?_⟩
  rw [load_of_save (save_run_empty config), failed]
  rfl

end Config

end TreeExport
