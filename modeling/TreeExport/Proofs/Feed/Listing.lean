import TreeExport.Proofs.Feed.Fallback
import TreeExport.Proofs.Feed.Marking

/-!
Feeds of lists. A list is live as a whole or not at all: one item that is no good makes demo data stand in for
all of them.
-/

namespace TreeExport

namespace Feed

variable {α ε : Type} {subject : String} {demo : List α} {live : Except Error (List α)}
variable {gives : List Value → Prop} {convert : Value → Except ε α}

/-- What a feed of a list does, by when it is given a list of items and how each of these is converted. -/
structure AllOrNothing (subject : String) (demo : List α) (gives : List Value → Prop)
    (convert : Value → Except ε α) (fetched : Except Error (Outcome (List α))) : Prop where
  settles : ∀ outcome, fetched = .ok outcome →
    (outcome.warning = none ∧ ∃ items, gives items ∧
      List.Forall₂ (fun item model => convert item = .ok model) items outcome.data) ∨
    outcome.FellBack subject demo
  live_iff : (∃ outcome, fetched = .ok outcome ∧ outcome.warning = none) ↔
    ∃ items, gives items ∧ ∀ item ∈ items, ∃ model, convert item = .ok model
  spoils : ∀ items, gives items → (∃ item ∈ items, ∀ model, convert item ≠ .ok model) →
    ∃ outcome, fetched = .ok outcome ∧ outcome.FellBack subject demo

/-- Whether live data are those of the items that a feed is given, and only the exchange can fail for good. -/
structure Converts (gives : List Value → Prop) (convert : Value → Except ε α)
    (live : Except Error (List α)) : Prop where
  unique : ∀ items others, gives items → gives others → items = others
  live_iff : ∀ models, live = .ok models ↔
    ∃ items, gives items ∧ List.Forall₂ (fun item model => convert item = .ok model) items models
  caught : ∀ items, gives items → ¬Escapes live

theorem Converts.exists_iff (converts : Converts gives convert live) :
    (∃ models, live = .ok models) ↔ ∃ items, gives items ∧ ∀ item ∈ items, ∃ model, convert item = .ok model := by
  constructor
  · rintro ⟨models, succeeded⟩
    obtain ⟨items, given, related⟩ := (converts.live_iff models).mp succeeded
    exact ⟨items, given, exists_mapM_eq_ok_iff.mp ⟨models, mapM_eq_ok_iff.mpr related⟩⟩
  · rintro ⟨items, given, each⟩
    obtain ⟨models, converted⟩ := exists_mapM_eq_ok each
    exact ⟨models, (converts.live_iff models).mpr ⟨items, given, mapM_eq_ok_iff.mp converted⟩⟩

theorem Converts.allOrNothing (converts : Converts gives convert live) (subject : String) (demo : List α) :
    AllOrNothing subject demo gives convert (withDemo subject demo live) where
  settles := by
    intro outcome fetched
    rcases withDemo_eq_ok fetched with fell | ⟨quiet, succeeded⟩
    · exact .inr fell
    · exact .inl ⟨quiet, (converts.live_iff outcome.data).mp succeeded⟩
  live_iff := by
    rw [← converts.exists_iff]
    constructor
    · rintro ⟨outcome, fetched, quiet⟩
      rcases withDemo_eq_ok fetched with ⟨_, cause, warned⟩ | ⟨_, succeeded⟩
      · exact absurd (quiet.symm.trans warned) nofun
      · exact ⟨outcome.data, succeeded⟩
    · rintro ⟨models, rfl⟩
      exact ⟨⟨models, none⟩, rfl, rfl⟩
  spoils := by
    rintro items given ⟨item, member, bad⟩
    cases live with
    | ok models =>
        obtain ⟨others, givenToo, each⟩ := converts.exists_iff.mp ⟨models, rfl⟩
        obtain rfl := converts.unique items others given givenToo
        obtain ⟨model, converted⟩ := each item member
        exact absurd converted (bad model)
    | error cause =>
        exact ⟨_, withDemo_of_not_escapes (converts.caught items given) subject demo, rfl, cause, rfl⟩

section Exchange

variable {network : Http.Network} {request : Http.Request} {document : Value}

theorem fetched_eq_ok_iff {read : Value → Except Error (List α)} {models : List α} :
    ((Http.fetchJson network request).result.mapError Error.fetch >>= read) = .ok models ↔
      ∃ document, Http.Answers network request document ∧ read document = .ok models := by
  constructor
  · intro succeeded
    obtain ⟨document, fetched, converted⟩ := exists_of_bind_eq_ok succeeded
    exact ⟨document, Http.fetchJson_eq_ok_iff.mp (mapError_eq_ok fetched), converted⟩
  · rintro ⟨document, answered, converted⟩
    rw [Http.fetchJson_eq_ok_iff.mpr answered, mapError_ok, bind_of_eq_ok rfl, converted]

theorem not_escapes_fetched (answered : Http.Answers network request document) :
    ¬Escapes ((Http.fetchJson network request).result.mapError .fetch) := by
  rw [Http.fetchJson_eq_ok_iff.mpr answered]
  exact not_escapes_ok document

end Exchange

end Feed

open Feed (Escapes escapes_bind fetched_eq_ok_iff not_escapes_fetched)

/-! ### Prices -/

namespace CryptoPrice

def inCapitals (price : CryptoPrice) : CryptoPrice :=
  { price with symbol := Text.upper price.symbol }

def ofItem (item : Value) : Except Schema.Failure CryptoPrice :=
  (ofValue item).map inCapitals

theorem ofItem_eq_ok_iff {item : Value} {price : CryptoPrice} :
    ofItem item = .ok price ↔ ∃ raw, ofValue item = .ok raw ∧ inCapitals raw = price := by
  rw [ofItem]
  cases ofValue item <;> simp [Except.map]

theorem mapM_ofItem_eq_ok_iff {items : List Value} {prices : List CryptoPrice} :
    List.Forall₂ (fun item price => ofItem item = .ok price) items prices ↔
      ∃ raw, items.mapM ofValue = .ok raw ∧ raw.map inCapitals = prices := by
  constructor
  · intro related
    induction related with
    | nil => exact ⟨[], rfl, rfl⟩
    | cons first _ ih =>
        obtain ⟨price, read, rfl⟩ := ofItem_eq_ok_iff.mp first
        obtain ⟨raw, made, rfl⟩ := ih
        refine ⟨price :: raw, ?_, rfl⟩
        rw [List.mapM_cons, bind_of_eq_ok read, bind_of_eq_ok made]
        rfl
  · rintro ⟨raw, made, rfl⟩
    refine List.forall₂_map_right_iff.mpr ((forall₂_of_mapM_eq_ok made).imp fun item price read => ?_)
    exact ofItem_eq_ok_iff.mpr ⟨price, read, rfl⟩

theorem ofDocument_eq_ok_iff {document : Value} {prices : List CryptoPrice} :
    ofDocument document = .ok prices ↔ ∃ items, document = .list items ∧
      List.Forall₂ (fun item price => ofItem item = .ok price) items prices := by
  constructor
  · intro converted
    cases document with
    | list items =>
        obtain ⟨raw, made, last⟩ := exists_of_bind_eq_ok converted
        exact ⟨items, rfl, mapM_ofItem_eq_ok_iff.mpr ⟨raw, mapError_eq_ok made, Except.ok.inj last⟩⟩
    | _ => exact absurd converted nofun
  · rintro ⟨items, rfl, related⟩
    obtain ⟨raw, made, rfl⟩ := mapM_ofItem_eq_ok_iff.mp related
    rw [ofDocument, made, mapError_ok, bind_of_eq_ok rfl]
    rfl

def Lists (network : Http.Network) (ids : List String) (timeout : Http.Seconds) (items : List Value) : Prop :=
  Http.Answers network (request ids timeout) (.list items)

theorem converts_live (network : Http.Network) (ids : List String) (timeout : Http.Seconds) :
    Feed.Converts (Lists network ids timeout) ofItem (live network ids timeout).result where
  unique items others first second := Value.list.inj (first.unique second)
  live_iff prices := by
    rw [result_live, fetched_eq_ok_iff]
    simp only [ofDocument_eq_ok_iff, Lists]
    constructor
    · rintro ⟨_, answered, items, rfl, related⟩
      exact ⟨items, answered, related⟩
    · rintro ⟨items, answered, related⟩
      exact ⟨_, answered, items, rfl, related⟩
  caught items answered := by
    rw [result_live, escapes_bind]
    rintro (unfetched | ⟨document, _, unread⟩)
    · exact not_escapes_fetched answered unfetched
    · exact not_escapes_ofDocument document unread

end CryptoPrice

/-! ### Repositories -/

theorem Value.part_eq_ok_iff {document found : Value} {name : String} :
    document.part name = .ok found ↔
      ∃ entries, document = .map entries ∧ Value.lookup? entries name = some found := by
  constructor
  · intro given
    cases document with
    | map entries =>
        rw [Value.part] at given
        split at given
        · rename_i value present
          obtain rfl := Except.ok.inj given
          exact ⟨entries, rfl, present⟩
        · exact absurd given nofun
    | _ => exact absurd given nofun
  · rintro ⟨entries, rfl, present⟩
    rw [Value.part, present]

namespace Repository

/-- Whether a network gives a map, in which the items of a list, or of anything else that has items, are
found. -/
def Lists (network : Http.Network) (language : Option String) (perPage : Int) (timeout : Http.Seconds)
    (items : List Value) : Prop :=
  ∃ entries found, Http.Answers network (request language perPage timeout) (.map entries) ∧
    Value.lookup? entries "items" = some found ∧ found.items = .ok items

theorem ofDocument_eq_ok_iff {document : Value} {repositories : List Repository} :
    ofDocument document = .ok repositories ↔ ∃ entries found items, document = .map entries ∧
      Value.lookup? entries "items" = some found ∧ found.items = .ok items ∧
      List.Forall₂ (fun item repository => ofItem item = .ok repository) items repositories := by
  constructor
  · intro converted
    obtain ⟨found, given, further⟩ := exists_of_bind_eq_ok converted
    obtain ⟨items, listed, last⟩ := exists_of_bind_eq_ok further
    obtain ⟨entries, rfl, present⟩ := Value.part_eq_ok_iff.mp (mapError_eq_ok given)
    exact ⟨entries, found, items, rfl, present, mapError_eq_ok listed, forall₂_of_mapM_eq_ok last⟩
  · rintro ⟨entries, found, items, rfl, present, listed, related⟩
    rw [ofDocument, Value.part_eq_ok_iff.mpr ⟨entries, rfl, present⟩, mapError_ok, bind_of_eq_ok rfl, listed,
      mapError_ok, bind_of_eq_ok rfl, mapM_eq_ok_iff.mpr related]

theorem converts_live (network : Http.Network) (language : Option String) (perPage : Int)
    (timeout : Http.Seconds) : Feed.Converts (Lists network language perPage timeout) ofItem
      (live network language perPage timeout).result where
  unique := by
    rintro items others ⟨entries, found, answered, present, listed⟩ ⟨_, _, answeredToo, presentToo, listedToo⟩
    obtain rfl := Value.map.inj (answered.unique answeredToo)
    obtain rfl := Option.some.inj (present.symm.trans presentToo)
    exact Except.ok.inj (listed.symm.trans listedToo)
  live_iff repositories := by
    rw [result_live, fetched_eq_ok_iff]
    simp only [ofDocument_eq_ok_iff, Lists]
    constructor
    · rintro ⟨_, answered, entries, found, items, rfl, present, listed, related⟩
      exact ⟨items, ⟨entries, found, answered, present, listed⟩, related⟩
    · rintro ⟨items, ⟨entries, found, answered, present, listed⟩, related⟩
      exact ⟨_, answered, entries, found, items, rfl, present, listed, related⟩
  caught := by
    rintro items ⟨entries, found, answered, _, _⟩
    rw [result_live, escapes_bind]
    rintro (unfetched | ⟨document, _, unread⟩)
    · exact not_escapes_fetched answered unfetched
    · exact not_escapes_ofDocument document unread

end Repository

namespace Feed

/-- Prices and repositories are live as a whole or demo data as a whole. They are live exactly if the request is
answered with items of which every one is converted. -/
theorem lists_all_or_nothing (network : Http.Network) (timeout : Http.Seconds) :
    (∀ ids, AllOrNothing "Crypto prices" CryptoPrice.demo (CryptoPrice.Lists network ids timeout)
      CryptoPrice.ofItem (CryptoPrice.fetch network ids timeout).result) ∧
    ∀ language perPage, AllOrNothing "GitHub repositories" Repository.demo
      (Repository.Lists network language perPage timeout) Repository.ofItem
      (Repository.fetch network language perPage timeout).result :=
  ⟨fun ids => (CryptoPrice.converts_live network ids timeout).allOrNothing _ _,
    fun language perPage => (Repository.converts_live network language perPage timeout).allOrNothing _ _⟩

def nameless : Http.Network := fun _ =>
  .ok ⟨200, [], "[\x7b\"id\":\"a\",\"name\":\"A\",\"symbol\":\"a\"\x7d,\x7b\"id\":\"b\"\x7d]".toUTF8.toList⟩

def listed? : Value → Option (List Value)
  | .list items => some items
  | _ => none

theorem listed?_eq_some_iff {document : Value} {items : List Value} :
    listed? document = some items ↔ document = .list items := by
  cases document <;> simp [listed?]

theorem exists_items_nameless : ∃ items, CryptoPrice.Lists nameless [] Http.defaultTimeout items ∧
    items.map (fun item => (CryptoPrice.ofItem item).isOk) = [true, false] := by
  have shown : (((Http.fetchJson nameless (CryptoPrice.request [] Http.defaultTimeout)).result.toOption.bind
      listed?).map fun items => items.map fun item => (CryptoPrice.ofItem item).isOk) =
      some [true, false] := by decide +kernel
  obtain ⟨items, found, counted⟩ := Option.map_eq_some_iff.mp shown
  obtain ⟨document, given, isList⟩ := Option.bind_eq_some_iff.mp found
  obtain rfl := listed?_eq_some_iff.mp isList
  cases fetched : (Http.fetchJson nameless (CryptoPrice.request [] Http.defaultTimeout)).result with
  | error cause =>
      rw [fetched] at given
      cases given
  | ok document =>
      rw [fetched] at given
      obtain rfl := Option.some.inj given
      exact ⟨items, Http.fetchJson_eq_ok_iff.mp fetched, counted⟩

/-- The price that is complete is not kept either. -/
theorem lists_all_or_nothing_nameless :
    ∃ items outcome, CryptoPrice.Lists nameless [] Http.defaultTimeout items ∧
      (∃ item ∈ items, ∃ price, CryptoPrice.ofItem item = .ok price) ∧
      (CryptoPrice.fetch nameless [] Http.defaultTimeout).result = .ok outcome ∧
      outcome.FellBack "Crypto prices" CryptoPrice.demo := by
  obtain ⟨items, given, shown⟩ := exists_items_nameless
  obtain ⟨first, second, rfl⟩ := List.length_eq_two.mp (by simpa using congrArg List.length shown)
  obtain ⟨good, rest⟩ := List.cons.inj shown
  obtain ⟨bad, _⟩ := List.cons.inj rest
  obtain ⟨price, converted⟩ : ∃ price, CryptoPrice.ofItem first = .ok price := by
    cases read : CryptoPrice.ofItem first with
    | error cause => simp [read, Except.isOk, Except.toBool] at good
    | ok price => exact ⟨price, rfl⟩
  have unread : ∀ price, CryptoPrice.ofItem second ≠ .ok price := by
    intro price read
    simp [read, Except.isOk, Except.toBool] at bad
  obtain ⟨outcome, fetched, fell⟩ := ((lists_all_or_nothing nameless Http.defaultTimeout).1 []).spoils
    [first, second] given ⟨second, by simp, unread⟩
  exact ⟨[first, second], outcome, given, ⟨first, by simp, price, converted⟩, fetched, fell⟩

end Feed

end TreeExport
