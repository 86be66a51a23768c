import TreeExport.Config.Reading
import TreeExport.Proofs.Feed.Requests
import TreeExport.Proofs.Outcome
import Mathlib.Data.List.TakeWhile

/-!
Lists of names in the environment. However a list is spelled, with blanks around its names and with blank
entries between them, the settings have exactly its names, and the request for their prices joins them so
that cutting at the commas gives them back.
-/

namespace TreeExport

namespace Text

variable {skip : Char → Bool} {text before middle after : List Char}

theorem head?_dropWhile (skip : Char → Bool) (text : List Char) :
    ∀ c ∈ (text.dropWhile skip).head?, skip c = false := by
  have stops := List.head?_dropWhile_not skip text
  intro c isFirst
  rw [Option.mem_def] at isFirst
  simpa only [isFirst] using stops

theorem trimEnds_of_skipped (skipped : ∀ c ∈ text, skip c = true) : trimEnds skip text = [] := by
  rw [trimEnds, List.dropWhile_eq_nil_iff.mpr skipped]
  rfl

theorem dropWhile_of_head? (kept : ∀ c ∈ text.head?, skip c = false) : text.dropWhile skip = text := by
  cases text with
  | nil => rfl
  | cons c rest => rw [List.dropWhile_cons, kept c rfl, if_neg Bool.false_ne_true]

theorem trimEnds_append (skipped : ∀ c ∈ before, skip c = true) (skippedToo : ∀ c ∈ after, skip c = true)
    (filled : middle ≠ []) (first : ∀ c ∈ middle.head?, skip c = false)
    (last : ∀ c ∈ middle.getLast?, skip c = false) : trimEnds skip (before ++ middle ++ after) = middle := by
  have starts : (before ++ middle ++ after).dropWhile skip = middle ++ after := by
    rw [List.append_assoc, List.dropWhile_append_of_pos skipped, dropWhile_of_head?]
    intro c isFirst
    rw [List.head?_append_of_ne_nil middle filled] at isFirst
    exact first c isFirst
  have ends : (middle ++ after).reverse.dropWhile skip = middle.reverse := by
    rw [List.reverse_append, List.dropWhile_append_of_pos fun c member =>
      skippedToo c (List.mem_reverse.mp member), dropWhile_of_head?]
    intro c isLast
    rw [List.head?_reverse] at isLast
    exact last c isLast
  rw [trimEnds, starts, ends, List.reverse_reverse]

theorem exists_trimEnds (skip : Char → Bool) (text : List Char) :
    ∃ before after, text = before ++ trimEnds skip text ++ after ∧ (∀ c ∈ before, skip c = true) ∧
      (∀ c ∈ after, skip c = true) ∧ (∀ c ∈ (trimEnds skip text).head?, skip c = false) ∧
      ∀ c ∈ (trimEnds skip text).getLast?, skip c = false := by
  have starts := List.takeWhile_append_dropWhile (p := skip) (l := text)
  have skipped : ∀ c ∈ text.takeWhile skip, skip c = true := fun c => List.mem_takeWhile_imp
  have kept := head?_dropWhile skip text
  generalize text.takeWhile skip = before at starts skipped
  generalize body_eq : text.dropWhile skip = body at starts kept
  have ends := List.takeWhile_append_dropWhile (p := skip) (l := body.reverse)
  have split : body = trimEnds skip text ++ (body.reverse.takeWhile skip).reverse := by
    rw [trimEnds, body_eq, ← List.reverse_append, ends, List.reverse_reverse]
  refine ⟨before, (body.reverse.takeWhile skip).reverse, ?_, skipped, ?_, ?_, ?_⟩
  · rw [List.append_assoc, ← split, starts]
  · intro c member
    exact List.mem_takeWhile_imp (List.mem_reverse.mp member)
  · intro c isFirst
    apply kept c
    rw [split, List.head?_append, Option.mem_def.mp isFirst]
    rfl
  · intro c isLast
    rw [trimEnds, body_eq, List.getLast?_reverse] at isLast
    exact head?_dropWhile skip body.reverse c isLast

end Text

namespace Config

structure IsListable (name : String) : Prop where
  filled : name ≠ ""
  free : ',' ∉ name.toList
  first : ∀ c ∈ name.toList.head?, Text.isBlank c = false
  last : ∀ c ∈ name.toList.getLast?, Text.isBlank c = false

def Padding (text : List Char) : Prop := ∀ c ∈ text, Text.isBlank c = true

/-- Entries that spell names one after the other; blank entries spell nothing. -/
inductive Spell : (entries : List (List Char)) → (names : List String) → Prop
  | nil : Spell [] []
  | blank {entry entries names} : Padding entry → Spell entries names → Spell (entry :: entries) names
  | name {before name after entries names} : Padding before → IsListable name → Padding after →
      Spell entries names → Spell ((before ++ name.toList ++ after) :: entries) (name :: names)

def Lists (text : String) (names : List String) : Prop :=
  ∃ entries, Spell entries names ∧ text.toList = [','].intercalate entries

theorem Padding.free {text : List Char} (padding : Padding text) : ',' ∉ text :=
  fun member => absurd (padding ',' member) (by decide)

namespace Spell

variable {entries : List (List Char)} {names : List String}

theorem free (spell : Spell entries names) : ∀ entry ∈ entries, ',' ∉ entry := by
  induction spell with
  | nil => exact List.forall_mem_nil _
  | blank padding _ ih => exact List.forall_mem_cons.mpr ⟨padding.free, ih⟩
  | name before listable after _ ih =>
      refine List.forall_mem_cons.mpr ⟨?_, ih⟩
      simp only [List.mem_append, not_or]
      exact ⟨⟨before.free, listable.free⟩, after.free⟩

theorem listable (spell : Spell entries names) : ∀ name ∈ names, IsListable name := by
  induction spell with
  | nil => exact List.forall_mem_nil _
  | blank _ _ ih => exact ih
  | name _ listable _ _ ih => exact List.forall_mem_cons.mpr ⟨listable, ih⟩

end Spell

def namesOf (entries : List (List Char)) : List String :=
  ((entries.map (Text.trimEnds Text.isBlank)).filter (!·.isEmpty)).map String.ofList

theorem splitNames_eq (text : String) : splitNames text = namesOf (Text.split ',' text.toList) := rfl

theorem namesOf_cons_of_nil {entry : List Char} (empty : Text.trimEnds Text.isBlank entry = [])
    (entries : List (List Char)) : namesOf (entry :: entries) = namesOf entries := by
  simp [namesOf, empty]

theorem namesOf_cons_of_filled {entry name : List Char} (kept : Text.trimEnds Text.isBlank entry = name)
    (filled : name ≠ []) (entries : List (List Char)) :
    namesOf (entry :: entries) = String.ofList name :: namesOf entries := by
  simp [namesOf, kept, filled]

theorem Spell.namesOf_eq {entries : List (List Char)} {names : List String} (spell : Spell entries names) :
    namesOf entries = names := by
  induction spell with
  | nil => rfl
  | blank padding _ ih => rw [namesOf_cons_of_nil (Text.trimEnds_of_skipped padding), ih]
  | name before listable after _ ih =>
      have filled := mt String.toList_eq_nil_iff.mp listable.filled
      have kept := Text.trimEnds_append before after filled listable.first listable.last
      rw [namesOf_cons_of_filled kept filled, ih, String.ofList_toList]

theorem spell_namesOf {entries : List (List Char)} (free : ∀ entry ∈ entries, ',' ∉ entry) :
    Spell entries (namesOf entries) := by
  induction entries with
  | nil => exact .nil
  | cons entry entries ih =>
      obtain ⟨freeHere, freeLater⟩ := List.forall_mem_cons.mp free
      obtain ⟨before, after, split, skipped, skippedToo, first, last⟩ :=
        Text.exists_trimEnds Text.isBlank entry
      by_cases empty : Text.trimEnds Text.isBlank entry = []
      · rw [namesOf_cons_of_nil empty]
        refine .blank ?_ (ih freeLater)
        rw [split, empty, List.append_nil]
        exact List.forall_mem_append.mpr ⟨skipped, skippedToo⟩
      · rw [namesOf_cons_of_filled rfl empty]
        have spelled : entry =
            before ++ (String.ofList (Text.trimEnds Text.isBlank entry)).toList ++ after := by
          rw [String.toList_ofList]
          exact split
        rw [split] at freeHere
        simp only [List.mem_append, not_or] at freeHere
        have listable : IsListable (String.ofList (Text.trimEnds Text.isBlank entry)) := by
          refine ⟨?_, ?_, ?_, ?_⟩
          · rwa [ne_eq, ← String.toList_eq_nil_iff, String.toList_ofList]
          · rw [String.toList_ofList]
            exact freeHere.1.2
          · rwa [String.toList_ofList]
          · rwa [String.toList_ofList]
        have spell := Spell.name skipped listable skippedToo (ih freeLater)
        rwa [← spelled] at spell

theorem splitNames_eq_iff {text : String} {names : List String} :
    splitNames text = names ↔ Lists text names := by
  rw [splitNames_eq]
  constructor
  · rintro rfl
    exact ⟨Text.split ',' text.toList, spell_namesOf fun entry => Text.not_mem_of_mem_split,
      (Text.intercalate_split ',' text.toList).symm⟩
  · rintro ⟨entries, spell, joined⟩
    rw [joined]
    cases entries with
    | nil =>
        cases spell
        rfl
    | cons entry entries =>
        rw [Text.split_intercalate (List.cons_ne_nil entry entries) spell.free, spell.namesOf_eq]

def namesVariable : String := variableStart ++ "CRYPTO_IDS"

theorem get?_put_of_ne {name : String} (other : name ≠ "CRYPTO_IDS") (environment : Keyed String)
    (text : String) : (environment.put namesVariable text).get? (variableStart ++ name) =
      environment.get? (variableStart ++ name) := by
  have apart : variableStart ++ name ≠ namesVariable :=
    fun same => other ((String.append_right_inj variableStart).mp same)
  rw [Keyed.get?_put, if_neg apart]

theorem setting?_put_of_ne {name : String} (other : name ≠ "CRYPTO_IDS") (environment : Keyed String)
    (text : String) :
    setting? (environment.put namesVariable text) name = setting? environment name := by
  rw [setting?, get?_put_of_ne other, setting?]

theorem setting?_put {text : String} (given : text ≠ "") (environment : Keyed String) :
    setting? (environment.put namesVariable text) "CRYPTO_IDS" = some text := by
  rw [setting?, namesVariable, Keyed.get?_put, if_pos rfl, Option.filter_some, if_pos (bne_iff_ne.mpr given)]

theorem readSetting?_put_of_ne {α : Type} {name : String} (other : name ≠ "CRYPTO_IDS")
    (environment : Keyed String) (text : String) (read : String → Except Numeral.Error α) :
    readSetting? (environment.put namesVariable text) name read = readSetting? environment name read := by
  rw [readSetting?, setting?_put_of_ne other, readSetting?]

/-- Names in the environment replace the names of the settings and change nothing else. -/
theorem ofEnvironment_put {text : String} (given : text ≠ "") (environment : Keyed String) :
    ofEnvironment (environment.put namesVariable text) =
      (ofEnvironment environment).map fun config =>
        { config with providers := { config.providers with cryptoIds := splitNames text } } := by
  have same {name : String} (other : name ≠ "CRYPTO_IDS") := setting?_put_of_ne other environment text
  have look {name : String} (other : name ≠ "CRYPTO_IDS") := get?_put_of_ne other environment text
  have depth := readSetting?_put_of_ne (by decide : "MAX_DEPTH" ≠ "CRYPTO_IDS") environment text
    (Numeral.integer 10)
  have timeout := readSetting?_put_of_ne (by decide : "PROVIDER_TIMEOUT" ≠ "CRYPTO_IDS") environment text
    Numeral.float
  rw [ofEnvironment, ofEnvironment, depth, timeout]
  simp only [map_bind_eq, setting?_put given, same (by decide : "STRICT" ≠ "CRYPTO_IDS"),
    same (by decide : "WEATHER_CITY" ≠ "CRYPTO_IDS"), same (by decide : "GITHUB_LANGUAGE" ≠ "CRYPTO_IDS"),
    look (by decide : "PROJECT_NAME" ≠ "CRYPTO_IDS"), look (by decide : "OUTPUT_DIR" ≠ "CRYPTO_IDS")]
  rfl

theorem cryptoIds_of_ofEnvironment {environment : Keyed String} {config : Config}
    (accepted : ofEnvironment environment = .ok config) :
    config.providers.cryptoIds =
      ((setting? environment "CRYPTO_IDS").map splitNames).getD CryptoPrice.defaultIds := by
  obtain ⟨depth?, _, accepted⟩ := exists_of_bind_eq_ok accepted
  obtain ⟨timeout?, _, accepted⟩ := exists_of_bind_eq_ok accepted
  obtain ⟨depth, _, accepted⟩ := exists_of_bind_eq_ok accepted
  obtain ⟨timeout, _, accepted⟩ := exists_of_bind_eq_ok accepted
  obtain rfl := Except.ok.inj accepted
  rfl

theorem split_intercalate_names {names : List String} (filled : names ≠ [])
    (free : ∀ name ∈ names, ',' ∉ name.toList) :
    (Text.split ',' (",".intercalate names).toList).map String.ofList = names := by
  have pieces : names.map String.toList ≠ [] := mt List.map_eq_nil_iff.mp filled
  have apart : ∀ piece ∈ names.map String.toList, ',' ∉ piece := by
    intro piece member
    obtain ⟨name, listed, rfl⟩ := List.mem_map.mp member
    exact free name listed
  rw [String.toList_intercalate]
  show (Text.split ',' ([','].intercalate (names.map String.toList))).map String.ofList = names
  rw [Text.split_intercalate pieces apart, List.map_map]
  calc names.map (String.ofList ∘ String.toList) = names.map id :=
        List.map_congr_left fun name _ => String.ofList_toList
    _ = names := List.map_id names

/-- A list of names in the environment is read as the names that it spells, and nothing else in the settings
changes with it. The names read are all listable. A dashboard makes one request for prices, which has these names,
or the usual ones if there are none, between commas. -/
theorem ofEnvironment_lists {text : String} (given : text ≠ "") :
    (∀ names, Lists text names → ∀ environment,
      ofEnvironment (environment.put namesVariable text) =
        (ofEnvironment environment).map fun config =>
          { config with providers := { config.providers with cryptoIds := names } }) ∧
    ∀ environment config, environment.get? namesVariable = some text →
      ofEnvironment environment = .ok config →
      Lists text config.providers.cryptoIds ∧ (∀ name ∈ config.providers.cryptoIds, IsListable name) ∧
      ∀ network, ∃ request parameters joined,
        Dashboard.AsksOnce (Dashboard.build network config.providers) request ∧
          request.url = CryptoPrice.url ∧ request.parameters = some parameters ∧
          parameters.lookup "ids" = some (.text joined) ∧
          (Text.split ',' joined.toList).map String.ofList =
            if config.providers.cryptoIds = [] then CryptoPrice.defaultIds
            else config.providers.cryptoIds := by
  constructor
  · intro names lists environment
    rw [ofEnvironment_put given, splitNames_eq_iff.mpr lists]
  · intro environment config found accepted
    have set : setting? environment "CRYPTO_IDS" = some text := by
      rw [setting?, ← namesVariable, found, Option.filter_some, if_pos (bne_iff_ne.mpr given)]
    have ids := cryptoIds_of_ofEnvironment accepted
    rw [set, Option.map_some, Option.getD_some] at ids
    have lists := splitNames_eq_iff.mp ids.symm
    obtain ⟨entries, spell, _⟩ := lists
    refine ⟨splitNames_eq_iff.mp ids.symm, spell.listable, fun network => ?_⟩
    refine ⟨_, _, _, Dashboard.asksOnce_of_mem network List.mem_cons_self, rfl, rfl, rfl, ?_⟩
    by_cases none : config.providers.cryptoIds = []
    · rw [none]
      decide
    · rw [if_neg none, List.isEmpty_eq_false_iff.mpr none]
      exact split_intercalate_names none fun name member => (spell.listable name member).free

/-- A list with blanks and blank entries in an environment that sets nothing else. -/
theorem ofEnvironment_lists_padded :
    Lists "bitcoin, dogecoin ,," ["bitcoin", "dogecoin"] ∧
    ∃ config, ofEnvironment [(namesVariable, "bitcoin, dogecoin ,,")] = .ok config ∧
      config.providers.cryptoIds = ["bitcoin", "dogecoin"] ∧
      ∀ network, ∃ request parameters joined,
        Dashboard.AsksOnce (Dashboard.build network config.providers) request ∧
          request.url = CryptoPrice.url ∧ request.parameters = some parameters ∧
          parameters.lookup "ids" = some (.text joined) ∧
          (Text.split ',' joined.toList).map String.ofList = ["bitcoin", "dogecoin"] := by
  have lists : Lists "bitcoin, dogecoin ,," ["bitcoin", "dogecoin"] := splitNames_eq_iff.mp (by decide)
  obtain ⟨spelled, read⟩ := ofEnvironment_lists (by decide : "bitcoin, dogecoin ,," ≠ "")
  have accepted := spelled _ lists []
  have plain : ofEnvironment [] = .ok default := by
    simp only [ofEnvironment, readSetting?, setting?]
    decide +kernel
  rw [plain] at accepted
  obtain ⟨_, _, asked⟩ := read _ _ rfl accepted
  exact ⟨lists, _, accepted, rfl, asked⟩

end Config

end TreeExport
