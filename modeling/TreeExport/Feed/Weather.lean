import TreeExport.Feed.Basic
import TreeExport.Schema.Record

/-!
The current weather of a few cities. Temperatures are in degrees Fahrenheit.
-/

namespace TreeExport

open Schema

structure City where
  name : String
  latitude : Binary64
  longitude : Binary64
  deriving DecidableEq

namespace City

/-- A city with its place in units of the fourth decimal. -/
def atPlace (name : String) (latitude longitude : Int) : City :=
  let degrees (count : Int) : Binary64 := Binary64.ofRatio (count < 0) count.natAbs 10000
  ⟨name, degrees latitude, degrees longitude⟩

def newYork : City := atPlace "New York" 407128 (-740060)

def all : Keyed City := [
  ("new-york", newYork),
  ("london", atPlace "London" 515074 (-1278)),
  ("tokyo", atPlace "Tokyo" 356762 1396503),
  ("san-francisco", atPlace "San Francisco" 377749 (-1224194)),
  ("mumbai", atPlace "Mumbai" 190760 728777)]

def defaultKey : String := "new-york"

def resolveKey (key : String) : String :=
  if all.has key then key else defaultKey

def ofKey (key : String) : City :=
  (all.get? (resolveKey key)).getD newYork

end City

structure Weather where
  location : String
  temperature : Int
  feelsLike : Int
  condition : String
  windSpeed : Int
  humidity : Int
  latitude : Binary64
  longitude : Binary64
  isDemo : Bool
  deriving DecidableEq

namespace Weather

def fields (weather : Weather) : List (String × Value) := [
  ("location", .text weather.location), ("temperature", .int weather.temperature),
  ("feels_like", .int weather.feelsLike), ("condition", .text weather.condition),
  ("wind_speed", .int weather.windSpeed), ("humidity", .int weather.humidity),
  ("latitude", .float weather.latitude), ("longitude", .float weather.longitude)]

def check (value : Value) : Checked Weather :=
  (fieldsOf .value "WeatherData" value).andThen fun entries =>
    Weather.mk <$> required entries "location" text <*> required entries "temperature" integer
      <*> required entries "feels_like" integer <*> required entries "condition" text
      <*> required entries "wind_speed" integer <*> required entries "humidity" integer
      <*> required entries "latitude" (number .value)
      <*> required entries "longitude" (number .value)
      <*> optional entries "is_demo" false boolean

def ofValue (value : Value) : Except Failure Weather :=
  (check value).named "WeatherData"

def conditionOfCode (code : Int) : String :=
  if code = 0 then "Clear"
  else if code ≤ 3 then "Partly Cloudy"
  else if code ≤ 48 then "Foggy"
  else if code ≤ 67 then "Rainy"
  else if code ≤ 77 then "Snowy"
  else if code ≤ 82 then "Showers"
  else "Stormy"

def url : String := "https://api.open-meteo.com/v1/forecast"

def request (city : City) (timeout : Http.Seconds) : Http.Request where
  url := url
  parameters := some [
    ("latitude", .float city.latitude),
    ("longitude", .float city.longitude),
    ("current_weather", .text "true"),
    ("temperature_unit", .text "fahrenheit")]
  headers := none
  timeout

def usualHumidity : Int := 65

def feelsLower : Binary64 := Binary64.ofInt 2

def rounded (value : Binary64) : Except Feed.Error Int :=
  value.roundHalfUp.mapError fun cause => .conversion (.rounding cause)

def numberAt (document : Value) (name : String) : Except Feed.Error Binary64 := do
  let value ← (document.part name).mapError .access
  value.toNumber.mapError .conversion

def ofDocument (city : City) (document : Value) : Except Feed.Error Weather := do
  let current ← (document.part "current_weather").mapError .access
  let temperature ← numberAt current "temperature"
  let shown ← rounded temperature
  let feelsLike ← rounded (temperature + -feelsLower)
  let code ← (current.part "weathercode").mapError .access
  let code ← code.toInteger.mapError .conversion
  let windSpeed ← rounded (← numberAt current "windspeed")
  return {
    location := city.name
    temperature := shown
    feelsLike
    condition := conditionOfCode code
    windSpeed
    humidity := usualHumidity
    latitude := city.latitude
    longitude := city.longitude
    isDemo := false }

def demo (location : String) : Weather where
  location
  temperature := 72
  feelsLike := 70
  condition := "Partly Cloudy"
  windSpeed := 8
  humidity := usualHumidity
  latitude := City.newYork.latitude
  longitude := City.newYork.longitude
  isDemo := true

def live (network : Http.Network) (key : String) (timeout : Http.Seconds) :
    Http.Exchange Feed.Error Weather := do
  let city := City.ofKey key
  let document ← (Http.fetchJson network (request city timeout)).mapError .fetch
  .ofExcept (ofDocument city document)

theorem result_live (network : Http.Network) (key : String) (timeout : Http.Seconds) :
    (live network key timeout).result =
      (Http.fetchJson network (request (City.ofKey key) timeout)).result.mapError .fetch >>=
        ofDocument (City.ofKey key) :=
  Http.Exchange.result_bind _ _

def fetch (network : Http.Network) (key : String) (timeout : Http.Seconds) :
    Http.Exchange Feed.Error (Feed.Outcome Weather) :=
  let city := City.ofKey key
  (live network key timeout).mapResult
    (Feed.withDemo s!"Weather for {city.name}" (demo city.name))

end Weather

end TreeExport
