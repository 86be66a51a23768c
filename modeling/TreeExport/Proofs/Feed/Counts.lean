import TreeExport.Proofs.Feed.Listing
import TreeExport.Proofs.Json.Readable
import TreeExport.Proofs.Schema.Integer

/-!
The integers among the data of feeds. None has too many digits to be written: counts of repositories are read
from documents, which have no longer ones, and numbers of the weather are rounded.
-/

namespace TreeExport

open Schema
open Value (HasFewDigits IsReadable everywhere_list everywhere_map everywhere_of_isName everywhere_lookup?)

/-! ### Parts of documents -/

namespace Value

variable {value found : Value} {name : String}

theorem everywhere_part {holds : Value → Prop} (all : value.Everywhere holds)
    (given : value.part name = .ok found) : found.Everywhere holds := by
  obtain ⟨entries, rfl, present⟩ := part_eq_ok_iff.mp given
  exact everywhere_lookup? all present

theorem everywhere_items {items : List Value} (all : value.Everywhere IsReadable)
    (listed : value.items = .ok items) : ∀ item ∈ items, item.Everywhere IsReadable := by
  have here := all value (.refl value)
  cases value with
  | list items =>
      obtain rfl := Except.ok.inj listed
      exact (everywhere_list.mp all).2
  | map entries =>
      obtain rfl := Except.ok.inj listed
      intro key member
      obtain ⟨entry, inside, rfl⟩ := List.mem_map.mp member
      obtain ⟨name, isText⟩ := here entry inside
      rw [isText]
      exact everywhere_of_isName trivial trivial
  | text given =>
      obtain rfl := Except.ok.inj listed
      intro item member
      obtain ⟨c, _, rfl⟩ := List.mem_map.mp member
      exact everywhere_of_isName trivial trivial
  | null | bool | int | float => exact absurd listed nofun
  | _ => exact here.elim

theorem IsReadable.isShort (readable : value.IsReadable) : value.IsShort := by
  cases value with
  | int n => exact readable
  | set items => exact readable.elim
  | _ => trivial

end Value

theorem Http.Answers.everywhere {network : Network} {request : Request} {document : Value}
    (answered : Answers network request document) : document.Everywhere IsReadable := by
  obtain ⟨_, _, _, _, read⟩ := answered
  exact Json.everywhere_of_read read

/-! ### Repositories -/

namespace Repository

variable {item : Value} {repository : Repository}

def HasFewDigits (repository : Repository) : Prop :=
  Value.HasFewDigits repository.stars ∧ Value.HasFewDigits repository.forks

instance (repository : Repository) : Decidable repository.HasFewDigits :=
  inferInstanceAs (Decidable (_ ∧ _))

theorem hasFewDigits_of_ofItem (readable : item.Everywhere IsReadable) (read : ofItem item = .ok repository) :
    repository.HasFewDigits := by
  obtain ⟨stars, forks, givenStars, counted, givenForks, countedToo, _⟩ := ofItem_eq_ok read
  have shortStars := (Value.everywhere_part readable givenStars stars (.refl stars)).isShort
  have shortForks := (Value.everywhere_part readable givenForks forks (.refl forks)).isShort
  exact ⟨hasFewDigits_of_integer counted shortStars, hasFewDigits_of_integer countedToo shortForks⟩

theorem hasFewDigits_of_fetch {network : Http.Network} {language : Option String} {perPage : Int}
    {timeout : Http.Seconds} {outcome : Feed.Outcome (List Repository)}
    (fetched : (fetch network language perPage timeout).result = .ok outcome) :
    ∀ repository ∈ outcome.data, repository.HasFewDigits := by
  rcases Feed.withDemo_eq_ok fetched with ⟨isDemo, _⟩ | ⟨_, live⟩
  · rw [isDemo]
    decide +kernel
  · obtain ⟨items, ⟨entries, found, answered, present, listed⟩, related⟩ :=
      ((converts_live network language perPage timeout).live_iff outcome.data).mp live
    have each := Value.everywhere_items (everywhere_lookup? answered.everywhere present) listed
    have counted := ((List.forall₂_and_left _ _).mpr ⟨each, related⟩).imp fun _ _ both =>
      And.intro (hasFewDigits_of_ofItem both.1 both.2) both.2
    exact ((List.forall₂_and_left _ _).mp counted.flip).1

end Repository

/-! ### The weather -/

namespace Weather

variable {weather : Weather}

def HasFewDigits (weather : Weather) : Prop :=
  Value.HasFewDigits weather.temperature ∧ Value.HasFewDigits weather.feelsLike ∧
    Value.HasFewDigits weather.windSpeed ∧ Value.HasFewDigits weather.humidity

instance (weather : Weather) : Decidable weather.HasFewDigits :=
  inferInstanceAs (Decidable (_ ∧ _))

theorem hasFewDigits_of_rounded {number : Binary64} {n : Int} (near : rounded number = .ok n) :
    Value.HasFewDigits n := by
  obtain ⟨length, wide, short⟩ : ∃ length, 512 ≤ length ∧ length ≤ 4300 := ⟨512, by decide, by decide⟩
  exact Value.hasFewDigits_of_lt (Binary64.natAbs_lt_of_roundHalfUp (mapError_eq_ok near) wide) short

theorem hasFewDigits_of_ofDocument {city : City} {document : Value}
    (read : ofDocument city document = .ok weather) : weather.HasFewDigits := by
  obtain ⟨_, _, _, _, _, _, _, near, nearFelt, nearWind, rfl⟩ := ofDocument_eq_ok read
  have usual : Value.HasFewDigits usualHumidity := by decide
  exact ⟨hasFewDigits_of_rounded near, hasFewDigits_of_rounded nearFelt, hasFewDigits_of_rounded nearWind, usual⟩

theorem location_of_ofDocument {city : City} {document : Value}
    (read : ofDocument city document = .ok weather) : weather.location = city.name := by
  obtain ⟨_, _, _, _, _, _, _, _, _, _, rfl⟩ := ofDocument_eq_ok read
  rfl

theorem of_fetch {network : Http.Network} {key : String} {timeout : Http.Seconds}
    {outcome : Feed.Outcome Weather} (fetched : (fetch network key timeout).result = .ok outcome) :
    outcome.data.HasFewDigits ∧ outcome.data.location = (City.ofKey key).name := by
  rcases Feed.withDemo_eq_ok fetched with ⟨isDemo, _⟩ | ⟨_, live⟩
  · have few (location : String) : (demo location).HasFewDigits :=
      (by decide : (demo "").HasFewDigits)
    rw [isDemo]
    exact ⟨few _, rfl⟩
  · rw [result_live] at live
    obtain ⟨document, _, read⟩ := exists_of_bind_eq_ok live
    exact ⟨hasFewDigits_of_ofDocument read, location_of_ofDocument read⟩

end Weather

end TreeExport
