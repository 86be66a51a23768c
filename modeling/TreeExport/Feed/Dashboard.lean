import TreeExport.Config.Basic
import TreeExport.Feed.Price
import TreeExport.Feed.Repository
import TreeExport.Feed.Weather

/-!
The data of a dashboard: prices by coin, the weather by city, and a list of repositories.
-/

namespace TreeExport

namespace Dashboard

/-- The key of a city's weather: the city's key without hyphens and underscores. -/
def weatherKey (cityKey : String) : String :=
  String.ofList (cityKey.toList.filter fun c => c != '-' && c != '_')

def priceData (price : CryptoPrice) : Value :=
  let number := CryptoPrice.numberValue
  .ofKeyed [
    ("name", .text price.name), ("symbol", .text price.symbol),
    ("price", number price.currentPrice), ("change", number price.priceChangePercentage24h),
    ("change_24h", number price.priceChange24h), ("market_cap", number price.marketCap)]

def weatherData (weather : Weather) : Value :=
  .ofKeyed [
    ("location", .text weather.location), ("temp", .int weather.temperature),
    ("feels_like", .int weather.feelsLike), ("condition", .text weather.condition),
    ("wind_speed", .int weather.windSpeed), ("humidity", .int weather.humidity)]

/-- The data of all feeds. Of two prices for one coin the last one counts. -/
def shape (prices : List CryptoPrice) (weather : Weather) (repositories : List Repository)
    (cityKey : String) : Keyed Value :=
  let priced := Keyed.ofList (prices.map fun price => (price.id, priceData price))
  let listed := repositories.map fun repository => Value.ofKeyed repository.fields
  [ ("crypto", .ofKeyed priced),
    ("weather", .ofKeyed [(weatherKey cityKey, weatherData weather)]),
    ("github", .ofKeyed [("trending", .list listed)]) ]

def timeout (config : ProviderConfig) : Http.Seconds := .exact config.timeout

structure Report where
  sent : List Http.Message
  warnings : List String
  data : Except Feed.Error (Keyed Value)

def warningOf {α : Type} : Except Feed.Error (Feed.Outcome α) → Option String
  | .ok outcome => outcome.warning
  | .error _ => none

/-- The data of all feeds. A feed is asked even if one before it failed; the first failure counts. -/
def build (network : Http.Network) (config : ProviderConfig) : Report :=
  let cityKey := City.resolveKey config.weatherCity
  let limit := timeout config
  let prices := CryptoPrice.fetch network config.cryptoIds limit
  let weather := Weather.fetch network cityKey limit
  let repositories := Repository.fetch network config.githubLanguage config.githubPerPage limit
  { sent := prices.sent ++ weather.sent ++ repositories.sent
    warnings :=
      [warningOf prices.result, warningOf weather.result, warningOf repositories.result].filterMap id
    data := do
      let prices ← prices.result
      let weather ← weather.result
      let repositories ← repositories.result
      return shape prices.data weather.data repositories.data cityKey }

end Dashboard

end TreeExport
