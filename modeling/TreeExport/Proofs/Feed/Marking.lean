import TreeExport.Feed.Price
import TreeExport.Feed.Repository
import TreeExport.Feed.Weather
import TreeExport.Proofs.Outcome
import TreeExport.Proofs.Schema.Checked

/-!
Which data are marked as demo data. Demo data come with a warning and are marked throughout. Live weather
and live repositories are never marked, whatever the response holds; a live price is marked exactly if its
item of the response says so itself.
-/

namespace TreeExport

open Schema

namespace Feed

variable {α : Type} {subject : String} {demo : α} {live : Except Error α} {outcome : Outcome α}

/-- Demo data stand in, and a warning tells what is unavailable and why. -/
def Outcome.FellBack (outcome : Outcome α) (subject : String) (demo : α) : Prop :=
  outcome.data = demo ∧
    ∃ cause : Error, outcome.warning = some s!"{subject} unavailable ({cause.message}); using demo data."

theorem withDemo_eq_ok (fetched : withDemo subject demo live = .ok outcome) :
    outcome.FellBack subject demo ∨ outcome.warning = none ∧ live = .ok outcome.data := by
  cases live with
  | ok data =>
      have same := Except.ok.inj fetched
      subst same
      exact .inr ⟨rfl, rfl⟩
  | error cause =>
      rw [withDemo] at fetched
      split at fetched
      · have same := Except.ok.inj fetched
        subst same
        exact .inl ⟨rfl, cause, rfl⟩
      · exact absurd fetched nofun

end Feed

namespace Weather

variable {city : City} {document : Value} {weather : Weather}

theorem ofDocument_eq_ok (read : ofDocument city document = .ok weather) :
    ∃ temperature felt wind shown feelsLike windSpeed code,
      rounded temperature = .ok shown ∧ rounded felt = .ok feelsLike ∧ rounded wind = .ok windSpeed ∧
      weather = ⟨city.name, shown, feelsLike, conditionOfCode code, windSpeed, usualHumidity, city.latitude,
        city.longitude, false⟩ := by
  rw [ofDocument] at read
  obtain ⟨current, _, read⟩ := exists_of_bind_eq_ok read
  obtain ⟨temperature, _, read⟩ := exists_of_bind_eq_ok read
  obtain ⟨shown, near, read⟩ := exists_of_bind_eq_ok read
  obtain ⟨feelsLike, nearFelt, read⟩ := exists_of_bind_eq_ok read
  obtain ⟨code, _, read⟩ := exists_of_bind_eq_ok read
  obtain ⟨number, _, read⟩ := exists_of_bind_eq_ok read
  obtain ⟨speed, _, read⟩ := exists_of_bind_eq_ok read
  obtain ⟨windSpeed, nearWind, read⟩ := exists_of_bind_eq_ok read
  exact ⟨_, _, _, _, _, _, _, near, nearFelt, nearWind, (Except.ok.inj read).symm⟩

theorem isDemo_of_ofDocument (read : ofDocument city document = .ok weather) :
    weather.isDemo = false := by
  obtain ⟨_, _, _, _, _, _, _, _, _, _, rfl⟩ := ofDocument_eq_ok read
  rfl

end Weather

namespace Repository

variable {item : Value} {repository : Repository}

theorem parts_of_check {entries : List (Value × Value)}
    (checked : check (.map entries) = .valid repository) :
    required entries "stars" integer = .valid repository.stars ∧
      required entries "forks" integer = .valid repository.forks ∧
      Schema.optional entries "is_demo" false boolean = .valid repository.isDemo := by
  simp only [check, fieldsOf, Checked.andThen, Checked.seq_eq_valid_iff,
    Checked.map_eq_valid_iff] at checked
  obtain ⟨_, ⟨_, ⟨_, ⟨_, ⟨_, ⟨_, ⟨_, ⟨_, ⟨_, _, rfl⟩, _, _, rfl⟩, _, _, rfl⟩, stars, counted, rfl⟩, forks,
    countedToo, rfl⟩, _, _, rfl⟩, _, _, rfl⟩, _, _, rfl⟩, mark, marked, rfl⟩ := checked
  exact ⟨counted, countedToo, marked⟩

theorem ofItem_eq_ok (read : ofItem item = .ok repository) : ∃ stars forks,
    item.part "stargazers_count" = .ok stars ∧ integer stars = .valid repository.stars ∧
      item.part "forks_count" = .ok forks ∧ integer forks = .valid repository.forks ∧
      repository.isDemo = false := by
  rw [ofItem] at read
  obtain ⟨name, _, read⟩ := exists_of_bind_eq_ok read
  obtain ⟨fullName, _, read⟩ := exists_of_bind_eq_ok read
  obtain ⟨stars, givenStars, read⟩ := exists_of_bind_eq_ok read
  obtain ⟨forks, givenForks, read⟩ := exists_of_bind_eq_ok read
  obtain ⟨url, _, read⟩ := exists_of_bind_eq_ok read
  obtain ⟨owner, _, read⟩ := exists_of_bind_eq_ok read
  obtain ⟨ownerAvatar, _, read⟩ := exists_of_bind_eq_ok read
  have checked := Checked.named_eq_ok_iff.mp (mapError_eq_ok read)
  obtain ⟨counted, countedToo, marked⟩ := parts_of_check checked
  simp only [List.map_cons, List.map_nil, required, Schema.optional, Value.lookup?, String.reduceEq,
    ↓reduceIte, Checked.within_eq_valid_iff, Checked.valid.injEq] at counted countedToo marked
  exact ⟨stars, forks, mapError_eq_ok givenStars, counted, mapError_eq_ok givenForks, countedToo,
    marked.symm⟩

theorem isDemo_of_ofItem (read : ofItem item = .ok repository) : repository.isDemo = false := by
  obtain ⟨_, _, _, _, _, _, unmarked⟩ := ofItem_eq_ok read
  exact unmarked

theorem isDemo_of_ofDocument {document : Value} {repositories : List Repository}
    (read : ofDocument document = .ok repositories) :
    ∀ repository ∈ repositories, repository.isDemo = false := by
  rw [ofDocument] at read
  obtain ⟨found, _, read⟩ := exists_of_bind_eq_ok read
  obtain ⟨items, _, read⟩ := exists_of_bind_eq_ok read
  have unmarked := (forall₂_of_mapM_eq_ok read).imp fun _ _ made => And.intro (isDemo_of_ofItem made) made
  exact ((List.forall₂_and_left _ _).mp unmarked.flip).1

end Repository

namespace CryptoPrice

variable {item : Value} {price : CryptoPrice}

def SaysDemo (item : Value) : Prop :=
  ∃ entries mark, item = .map entries ∧ Value.lookup? entries "is_demo" = some mark ∧
    boolean mark = .valid true

theorem isDemo_of_check {entries : List (Value × Value)}
    (checked : check (.map entries) = .valid price) :
    Schema.optional entries "is_demo" false boolean = .valid price.isDemo := by
  simp only [check, fieldsOf, Checked.andThen, Checked.seq_eq_valid_iff,
    Checked.map_eq_valid_iff] at checked
  obtain ⟨_, ⟨_, ⟨_, ⟨_, ⟨_, ⟨_, ⟨_, ⟨_, ⟨_, _, rfl⟩, _, _, rfl⟩, _, _, rfl⟩, _, _, rfl⟩, _, _, rfl⟩, _, _,
    rfl⟩, _, _, rfl⟩, _, _, rfl⟩, mark, marked, rfl⟩ := checked
  exact marked

/-- The whole item is read as a price, also the field that marks it. -/
theorem isDemo_iff_of_ofValue (read : ofValue item = .ok price) : price.isDemo = true ↔ SaysDemo item := by
  have checked := Checked.named_eq_ok_iff.mp read
  obtain ⟨entries, given, _⟩ := Checked.andThen_eq_valid_iff.mp checked
  obtain rfl := fieldsOf_eq_valid given
  have marked := isDemo_of_check checked
  rw [Schema.optional] at marked
  cases found : Value.lookup? entries "is_demo" with
  | none =>
      rw [found] at marked
      have unmarked := Checked.valid.inj marked
      rw [← unmarked]
      refine iff_of_false Bool.false_ne_true ?_
      rintro ⟨_, mark, same, present, _⟩
      rw [← Value.map.inj same, found] at present
      cases present
  | some mark =>
      rw [found] at marked
      have readAs : boolean mark = .valid price.isDemo := Checked.within_eq_valid_iff.mp marked
      constructor
      · intro isDemo
        exact ⟨entries, mark, rfl, found, isDemo ▸ readAs⟩
      · rintro ⟨_, other, same, present, truth⟩
        rw [← Value.map.inj same, found] at present
        rw [← Option.some.inj present, readAs] at truth
        exact Checked.valid.inj truth

theorem forall₂_saysDemo_of_ofDocument {document : Value} {prices : List CryptoPrice}
    (read : ofDocument document = .ok prices) :
    ∃ items, document = .list items ∧
      List.Forall₂ (fun item price => price.isDemo = true ↔ SaysDemo item) items prices := by
  cases document with
  | list items =>
      obtain ⟨raw, made, read⟩ := exists_of_bind_eq_ok read
      have same := Except.ok.inj read
      subst same
      refine ⟨items, rfl, List.forall₂_map_right_iff.mpr ?_⟩
      exact (forall₂_of_mapM_eq_ok (mapError_eq_ok made)).imp fun _ _ => isDemo_iff_of_ofValue
  | _ => exact absurd read nofun

end CryptoPrice

namespace Feed

variable (network : Http.Network) (timeout : Http.Seconds)

/-- Models are marked exactly if demo data stand in, except that a live price is marked by its own item of
the response. -/
theorem marks_tell_demo :
    (∀ ids outcome, (CryptoPrice.fetch network ids timeout).result = .ok outcome →
      (outcome.FellBack "Crypto prices" CryptoPrice.demo ∧ ∀ price ∈ outcome.data, price.isDemo = true) ∨
      (outcome.warning = none ∧ ∃ items,
        (Http.fetchJson network (CryptoPrice.request ids timeout)).result = .ok (.list items) ∧
        List.Forall₂ (fun item price => price.isDemo = true ↔ CryptoPrice.SaysDemo item) items
          outcome.data)) ∧
    (∀ key outcome, (Weather.fetch network key timeout).result = .ok outcome →
      (outcome.FellBack s!"Weather for {(City.ofKey key).name}" (Weather.demo (City.ofKey key).name) ∧
        outcome.data.isDemo = true) ∨
      (outcome.warning = none ∧ outcome.data.isDemo = false)) ∧
    (∀ language perPage outcome,
      (Repository.fetch network language perPage timeout).result = .ok outcome →
      (outcome.FellBack "GitHub repositories" Repository.demo ∧
        ∀ repository ∈ outcome.data, repository.isDemo = true) ∨
      (outcome.warning = none ∧ ∀ repository ∈ outcome.data, repository.isDemo = false)) := by
  refine ⟨?_, ?_, ?_⟩
  · intro ids outcome fetched
    rcases withDemo_eq_ok fetched with fell | ⟨quiet, live⟩
    · refine .inl ⟨fell, ?_⟩
      rw [fell.1]
      simp [CryptoPrice.demo, CryptoPrice.demoPrice]
    · rw [CryptoPrice.result_live] at live
      obtain ⟨document, reply, read⟩ := exists_of_bind_eq_ok live
      obtain ⟨items, listed, marked⟩ := CryptoPrice.forall₂_saysDemo_of_ofDocument read
      subst listed
      exact .inr ⟨quiet, items, mapError_eq_ok reply, marked⟩
  · intro key outcome fetched
    rcases withDemo_eq_ok fetched with fell | ⟨quiet, live⟩
    · refine .inl ⟨fell, ?_⟩
      rw [fell.1]
      rfl
    · rw [Weather.result_live] at live
      obtain ⟨document, _, read⟩ := exists_of_bind_eq_ok live
      exact .inr ⟨quiet, Weather.isDemo_of_ofDocument read⟩
  · intro language perPage outcome fetched
    rcases withDemo_eq_ok fetched with fell | ⟨quiet, live⟩
    · refine .inl ⟨fell, ?_⟩
      rw [fell.1]
      simp [Repository.demo]
    · rw [Repository.result_live] at live
      obtain ⟨document, _, read⟩ := exists_of_bind_eq_ok live
      exact .inr ⟨quiet, Repository.isDemo_of_ofDocument read⟩

def selfMarking : Http.Network := fun _ =>
  .ok ⟨200, [], "[\x7b\"id\":\"a\",\"name\":\"A\",\"symbol\":\"a\",\"is_demo\":true\x7d]".toUTF8.toList⟩

theorem exists_of_toOption_map {fetched : Except Error (Outcome α)} {β : Type} {view : Outcome α → β}
    {seen : β} (shown : fetched.toOption.map view = some seen) :
    ∃ outcome, fetched = .ok outcome ∧ view outcome = seen := by
  cases fetched with
  | error cause => exact absurd shown nofun
  | ok outcome => exact ⟨outcome, rfl, Option.some.inj shown⟩

theorem exists_prices_selfMarking : ∃ outcome,
    (CryptoPrice.fetch selfMarking [] Http.defaultTimeout).result = .ok outcome ∧
      (outcome.warning, outcome.data.map CryptoPrice.isDemo) = (none, [true]) :=
  exists_of_toOption_map (by decide +kernel)

/-- The one price is live, while the weather and the repositories of the same network are demo data. -/
theorem marks_tell_demo_selfMarking :
    (∃ outcome items, (CryptoPrice.fetch selfMarking [] Http.defaultTimeout).result = .ok outcome ∧
      outcome.warning = none ∧
      List.Forall₂ (fun item price => price.isDemo = true ↔ CryptoPrice.SaysDemo item) items
        outcome.data) ∧
    (∃ outcome, (Weather.fetch selfMarking "london" Http.defaultTimeout).result = .ok outcome ∧
      outcome.warning.isSome = true ∧ outcome.data.isDemo = true) ∧
    ∃ outcome, (Repository.fetch selfMarking none 10 Http.defaultTimeout).result = .ok outcome ∧
      outcome.warning.isSome = true ∧ ∀ repository ∈ outcome.data, repository.isDemo = true := by
  obtain ⟨prices, weather, repositories⟩ := marks_tell_demo selfMarking Http.defaultTimeout
  refine ⟨?_, ?_, ?_⟩
  · obtain ⟨outcome, fetched, seen⟩ := exists_prices_selfMarking
    have quiet := congrArg Prod.fst seen
    rcases prices [] outcome fetched with ⟨⟨_, cause, warned⟩, _⟩ | ⟨_, items, _, marked⟩
    · exact absurd (quiet.symm.trans warned) nofun
    · exact ⟨outcome, items, fetched, quiet, marked⟩
  · obtain ⟨outcome, fetched, warned⟩ : ∃ outcome,
        (Weather.fetch selfMarking "london" Http.defaultTimeout).result = .ok outcome ∧
          outcome.warning.isSome = true := exists_of_toOption_map (by decide +kernel)
    rcases weather "london" outcome fetched with ⟨_, marked⟩ | ⟨quiet, _⟩
    · exact ⟨outcome, fetched, warned, marked⟩
    · exact absurd warned (by rw [quiet]; nofun)
  · obtain ⟨outcome, fetched, warned⟩ : ∃ outcome,
        (Repository.fetch selfMarking none 10 Http.defaultTimeout).result = .ok outcome ∧
          outcome.warning.isSome = true := exists_of_toOption_map (by decide +kernel)
    rcases repositories none 10 outcome fetched with ⟨_, marked⟩ | ⟨quiet, _⟩
    · exact ⟨outcome, fetched, warned, marked⟩
    · exact absurd warned (by rw [quiet]; nofun)

/-- A live price may be marked as a demo, without any warning. -/
theorem exists_marked_live_price : ∃ outcome,
    (CryptoPrice.fetch selfMarking [] Http.defaultTimeout).result = .ok outcome ∧ outcome.warning = none ∧
      ∃ price ∈ outcome.data, price.isDemo = true := by
  obtain ⟨outcome, fetched, seen⟩ := exists_prices_selfMarking
  have marks : outcome.data.map CryptoPrice.isDemo = [true] := congrArg Prod.snd seen
  obtain ⟨price, member, isDemo⟩ := List.mem_map.mp (marks ▸ List.mem_singleton_self true)
  exact ⟨outcome, fetched, congrArg Prod.fst seen, price, member, isDemo⟩

end Feed

end TreeExport
