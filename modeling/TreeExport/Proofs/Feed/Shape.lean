import TreeExport.Proofs.Feed.Counts
import TreeExport.Proofs.Feed.Requests
import TreeExport.Proofs.Keyed
import TreeExport.Tree.Reading

/-!
The data of a dashboard. They hold each coin once, the weather of one known city, and all repositories; and they
can always be given to a project and written as a literal.
-/

namespace TreeExport

/-! ### Cities -/

namespace City

variable {key : String}

theorem has_resolveKey (key : String) : all.has (resolveKey key) = true := by
  rw [resolveKey]
  split
  · rename_i known
    exact known
  · decide

theorem resolveKey_of_has (known : all.has key = true) : resolveKey key = key :=
  if_pos known

theorem get?_resolveKey (key : String) : all.get? (resolveKey key) = some (ofKey (resolveKey key)) := by
  have known := has_resolveKey key
  obtain ⟨city, found⟩ := Option.isSome_iff_exists.mp known
  rw [ofKey, resolveKey_of_has known, found]
  rfl

end City

namespace Dashboard

/-- Whether anything that a dashboard tells of a city is the same for another one. -/
def Alike (first second : String × City) : Prop :=
  weatherKey first.1 = weatherKey second.1 ∨ first.2.name = second.2.name ∨
    first.2.latitude = second.2.latitude ∧ first.2.longitude = second.2.longitude

instance (first second : String × City) : Decidable (Alike first second) :=
  inferInstanceAs (Decidable (_ ∨ _ ∨ _ ∧ _))

theorem eq_of_alike : ∀ first ∈ City.all, ∀ second ∈ City.all, Alike first second → first = second := by
  decide +kernel

/-- Whether the weather of a dashboard is that of a city: it stands under the city's key, it is labelled with the
city's name, and the one request for it is for the city's place. No other city shares any of these. -/
structure IsAbout (network : Http.Network) (config : ProviderConfig) (city : City) (weather : Weather) :
    Prop where
  known : City.all.get? (City.resolveKey config.weatherCity) = some city
  labelled : weather.location = city.name
  asked : ∃ request others, AsksOnce (build network config) request ∧ request.url = Weather.url ∧
    request.parameters =
      some (("latitude", .float city.latitude) :: ("longitude", .float city.longitude) :: others)
  unlike : ∀ other ∈ City.all, Alike other (City.resolveKey config.weatherCity, city) →
    other = (City.resolveKey config.weatherCity, city)

theorem isAbout_of_location (network : Http.Network) {config : ProviderConfig} {weather : Weather}
    (located : weather.location = (City.ofKey (City.resolveKey config.weatherCity)).name) :
    IsAbout network config (City.ofKey (City.resolveKey config.weatherCity)) weather where
  known := City.get?_resolveKey config.weatherCity
  labelled := located
  asked := ⟨_, _, asksOnce_of_mem network (List.mem_cons_of_mem _ List.mem_cons_self), rfl, rfl⟩
  unlike := by
    intro other member alike
    obtain ⟨before, after, split, _⟩ := List.lookup_eq_some_iff.mp (City.get?_resolveKey config.weatherCity)
    have listed : (City.resolveKey config.weatherCity, City.ofKey (City.resolveKey config.weatherCity)) ∈
        City.all := by
      rw [split]
      exact List.mem_append_right before List.mem_cons_self
    exact eq_of_alike other member _ listed alike

/-! ### Prices -/

/-- Whether a map has an entry for each coin, in the order of the first prices, with the values of the last
price. -/
structure HoldsPrices (prices : List CryptoPrice) (crypto : Keyed Value) : Prop where
  keys : crypto.keys = (prices.map CryptoPrice.id).eraseDups
  distinct : crypto.keys.Nodup
  last : ∀ before price after, prices = before ++ price :: after → (∀ other ∈ after, other.id ≠ price.id) →
    crypto.get? price.id = some (.ofKeyed [
      ("name", .text price.name), ("symbol", .text price.symbol),
      ("price", price.currentPrice.elim .null .float),
      ("change", price.priceChangePercentage24h.elim .null .float),
      ("change_24h", price.priceChange24h.elim .null .float),
      ("market_cap", price.marketCap.elim .null .float)])

theorem numberValue_eq (number : Option Binary64) : CryptoPrice.numberValue number = number.elim .null .float := by
  cases number <;> rfl

theorem holdsPrices_ofList (prices : List CryptoPrice) :
    HoldsPrices prices (Keyed.ofList (prices.map fun price => (price.id, priceData price))) where
  keys := by
    rw [Keyed.keys_ofList, List.map_map]
    rfl
  distinct := Keyed.nodup_keys_ofList _
  last := by
    rintro before price after rfl later
    simp only [← numberValue_eq]
    rw [List.map_append, List.map_cons]
    apply Keyed.get?_ofList_of_last
    intro listed
    obtain ⟨entry, member, same⟩ := List.mem_map.mp listed
    obtain ⟨other, behind, rfl⟩ := List.mem_map.mp member
    exact later other behind same

/-! ### Literals -/

open Value (writable_map writable_list writable_of_scalar)

theorem writable_ofKeyed {entries : List (String × Value)} (each : ∀ entry ∈ entries, entry.2.Writable) :
    (Value.ofKeyed entries).Writable := by
  refine writable_map.mpr ?_
  intro entry member
  obtain ⟨named, inside, rfl⟩ := List.mem_map.mp member
  exact ⟨⟨trivial, trivial⟩, each named inside⟩

theorem writable_text (text : String) : (Value.text text).Writable :=
  writable_of_scalar (Or.inl trivial) trivial

theorem writable_int {n : Int} (few : Value.HasFewDigits n) : (Value.int n).Writable :=
  writable_of_scalar (Or.inl trivial) few

theorem writable_numberValue (number : Option Binary64) : (CryptoPrice.numberValue number).Writable := by
  cases number <;> exact writable_of_scalar (Or.inl trivial) trivial

theorem writable_priceData (price : CryptoPrice) : (priceData price).Writable := by
  apply writable_ofKeyed
  simp only [List.forall_mem_cons, writable_text, writable_numberValue, true_and]
  exact nofun

theorem writable_weatherData {weather : Weather} (few : weather.HasFewDigits) :
    (weatherData weather).Writable := by
  obtain ⟨temperature, feelsLike, windSpeed, humidity⟩ := few
  apply writable_ofKeyed
  simp only [List.forall_mem_cons, writable_text, writable_int temperature, writable_int feelsLike,
    writable_int windSpeed, writable_int humidity, true_and]
  exact nofun

theorem writable_repository {repository : Repository} (few : repository.HasFewDigits) :
    (Value.ofKeyed repository.fields).Writable := by
  apply writable_ofKeyed
  simp only [Repository.fields, List.forall_mem_cons, writable_text, writable_int few.1, writable_int few.2,
    true_and]
  exact nofun

theorem writable_shape (prices : List CryptoPrice) {weather : Weather} {repositories : List Repository}
    (few : weather.HasFewDigits) (each : ∀ repository ∈ repositories, repository.HasFewDigits) (key : String) :
    (Value.ofKeyed (shape prices weather repositories key)).Writable := by
  have crypto : (Value.ofKeyed (Keyed.ofList
      (prices.map fun price => (price.id, priceData price)))).Writable := by
    apply writable_ofKeyed
    intro entry member
    obtain ⟨price, _, rfl⟩ := List.mem_map.mp (Keyed.mem_of_mem_ofList member)
    exact writable_priceData price
  have listed : (Value.list (repositories.map fun repository => .ofKeyed repository.fields)).Writable := by
    apply writable_list.mpr
    intro item member
    obtain ⟨repository, inside, rfl⟩ := List.mem_map.mp member
    exact writable_repository (each repository inside)
  apply writable_ofKeyed
  simp only [shape, List.forall_mem_cons]
  refine ⟨crypto, writable_ofKeyed ?_, writable_ofKeyed ?_, nofun⟩
  · exact List.forall_mem_singleton.mpr (writable_weatherData few)
  · exact List.forall_mem_singleton.mpr listed

/-! ### The data of a dashboard -/

theorem ofEntries_shape (name : String) (prices : List CryptoPrice) (weather : Weather)
    (repositories : List Repository) (key : String) :
    GeneratorOptions.ofEntries [(.text "project_name", .text name),
      (.text "data", .ofKeyed (shape prices weather repositories key))] =
      .ok ⟨name, shape prices weather repositories key⟩ :=
  rfl

theorem exists_write {value : Value} (writable : value.Writable) (spacing : Literal.Spacing) :
    ∃ text, Literal.write spacing value = .ok text := by
  obtain ⟨text, written⟩ := (Literal.exists_encodeAt_iff 0 value).mpr writable
  exact ⟨_, Literal.write_eq_ok written⟩

/-- The data of a dashboard are made from what its feeds give, live or not. Their weather is that of one known
city, the one that the settings name or else the default one, and their repositories are listed by all that is
known of them but the mark of demo data. They depend on the network through the messages sent only, are always
accepted as the data of a project, and always have a literal. -/
theorem build_describes (network : Http.Network) (config : ProviderConfig) (data : Keyed Value)
    (built : (build network config).data = .ok data) :
    ∃ prices weather repositories city crypto,
      (CryptoPrice.fetch network config.cryptoIds (timeout config)).result = .ok prices ∧
      (Weather.fetch network (City.resolveKey config.weatherCity) (timeout config)).result = .ok weather ∧
      (Repository.fetch network config.githubLanguage config.githubPerPage (timeout config)).result =
        .ok repositories ∧
      data = [
        ("crypto", .ofKeyed crypto),
        ("weather", .ofKeyed [(weatherKey (City.resolveKey config.weatherCity), .ofKeyed [
          ("location", .text weather.data.location), ("temp", .int weather.data.temperature),
          ("feels_like", .int weather.data.feelsLike), ("condition", .text weather.data.condition),
          ("wind_speed", .int weather.data.windSpeed), ("humidity", .int weather.data.humidity)])]),
        ("github", .ofKeyed [("trending", .list (repositories.data.map fun repository => .ofKeyed [
          ("name", .text repository.name), ("full_name", .text repository.fullName),
          ("description", .text repository.description), ("stars", .int repository.stars),
          ("forks", .int repository.forks), ("language", .text repository.language),
          ("url", .text repository.url), ("owner_avatar", .text repository.ownerAvatar)]))])] ∧
      HoldsPrices prices.data crypto ∧ IsAbout network config city weather.data ∧
      (∀ other : Http.Network,
        (∀ message ∈ (build network config).sent, other message = network message) →
          build other config = build network config) ∧
      (∀ name, GeneratorOptions.ofEntries [(.text "project_name", .text name), (.text "data", .ofKeyed data)] =
        .ok ⟨name, data⟩) ∧
      ∀ spacing, ∃ text, Literal.write spacing (.ofKeyed data) = .ok text := by
  obtain ⟨prices, givenPrices, further⟩ := exists_of_bind_eq_ok built
  obtain ⟨weather, givenWeather, further⟩ := exists_of_bind_eq_ok further
  obtain ⟨repositories, givenRepositories, last⟩ := exists_of_bind_eq_ok further
  obtain rfl := Except.ok.inj last
  obtain ⟨few, located⟩ := Weather.of_fetch givenWeather
  have counted := Repository.hasFewDigits_of_fetch givenRepositories
  refine ⟨prices, weather, repositories, _, _, givenPrices, givenWeather, givenRepositories, rfl,
    holdsPrices_ofList prices.data, isAbout_of_location network located, fun other => build_congr, ?_, ?_⟩
  · exact fun name => ofEntries_shape name prices.data weather.data repositories.data _
  · exact exists_write (writable_shape prices.data few counted _)

def elsewhere : ProviderConfig := { (default : Config).providers with weatherCity := "atlantis" }

theorem build_describes_elsewhere : ∃ data, (build unreachable elsewhere).data = .ok data ∧
    ∃ crypto weather github text, data = [("crypto", crypto), ("weather", .ofKeyed [("newyork", weather)]),
      ("github", github)] ∧
      weather.part "location" = .ok (.text "New York") ∧
      (∃ request, AsksOnce (build unreachable elsewhere) request ∧ request.url = Weather.url) ∧
      Literal.write (.indented 2) (.ofKeyed data) = .ok text := by
  obtain ⟨data, built⟩ : ∃ data, (build unreachable elsewhere).data = .ok data := ⟨_, rfl⟩
  obtain ⟨_, weather, _, city, _, _, _, _, shaped, _, about, _, _, written⟩ :=
    build_describes unreachable elsewhere data built
  have resolved : City.resolveKey elsewhere.weatherCity = "new-york" := by decide
  have key : weatherKey "new-york" = "newyork" := by decide
  have known := about.known
  have labelled := about.labelled
  obtain ⟨request, _, once, toWeather, _⟩ := about.asked
  rw [resolved] at known
  obtain rfl : City.newYork = city := Option.some.inj known
  rw [resolved, key, labelled] at shaped
  obtain ⟨text, wrote⟩ := written (.indented 2)
  exact ⟨data, built, _, _, _, text, shaped, rfl, ⟨request, once, toWeather⟩, wrote⟩

end Dashboard

end TreeExport
