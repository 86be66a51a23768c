import TreeExport.Feed.Basic
import TreeExport.Schema.Record
import TreeExport.Text.Case

/-!
Market prices of coins.
-/

namespace TreeExport

open Schema

structure CryptoPrice where
  id : String
  name : String
  symbol : String
  currentPrice : Option Binary64
  priceChange24h : Option Binary64
  priceChangePercentage24h : Option Binary64
  marketCap : Option Binary64
  totalVolume : Option Binary64
  isDemo : Bool
  deriving DecidableEq

namespace CryptoPrice

def numberValue : Option Binary64 → Value
  | none => .null
  | some number => .float number

def fields (price : CryptoPrice) : List (String × Value) := [
  ("id", .text price.id), ("name", .text price.name), ("symbol", .text price.symbol),
  ("current_price", numberValue price.currentPrice),
  ("price_change_24h", numberValue price.priceChange24h),
  ("price_change_percentage_24h", numberValue price.priceChangePercentage24h),
  ("market_cap", numberValue price.marketCap), ("total_volume", numberValue price.totalVolume)]

def check (value : Value) : Checked CryptoPrice :=
  (fieldsOf .value "CryptoPrice" value).andThen fun entries =>
    let number (name : String) : Checked (Option Binary64) :=
      optional entries name none (optionalNumber .value)
    CryptoPrice.mk <$> required entries "id" text <*> required entries "name" text
      <*> required entries "symbol" text <*> number "current_price" <*> number "price_change_24h"
      <*> number "price_change_percentage_24h" <*> number "market_cap" <*> number "total_volume"
      <*> optional entries "is_demo" false boolean

def ofValue (value : Value) : Except Failure CryptoPrice :=
  (check value).named "CryptoPrice"

def url : String := "https://api.coingecko.com/api/v3/coins/markets"

def defaultIds : List String := ["bitcoin", "ethereum", "cardano", "solana", "ripple"]

def request (ids : List String) (timeout : Http.Seconds) : Http.Request where
  url := url
  parameters := some [
    ("vs_currency", .text "usd"),
    ("ids", .text (",".intercalate (if ids.isEmpty then defaultIds else ids))),
    ("order", .text "market_cap_desc"),
    ("sparkline", .text "false")]
  headers := none
  timeout

def ofDocument (document : Value) : Except Feed.Error (List CryptoPrice) := do
  match document with
  | .list items =>
    let prices ← (items.mapM ofValue).mapError .invalid
    return prices.map fun price => { price with symbol := Text.upper price.symbol }
  | _ => throw (.unexpectedShape "CoinGecko")

/-- A demo price: numbers are given in hundredths, amounts of money as they are. -/
def demoPrice (id name symbol : String) (price change percentage cap volume : Int) : CryptoPrice :=
  let hundredths (count : Int) : Option Binary64 :=
    some (Binary64.ofRatio (count < 0) count.natAbs 100)
  let whole (count : Int) : Option Binary64 := some (Binary64.ofInt count)
  ⟨id, name, symbol, hundredths price, hundredths change, hundredths percentage, whole cap,
    whole volume, true⟩

def demo : List CryptoPrice := [
  demoPrice "bitcoin" "Bitcoin" "BTC" 4523050 125030 284 885000000000 28500000000,
  demoPrice "ethereum" "Ethereum" "ETH" 289075 (-4520) (-154) 347000000000 15200000000,
  demoPrice "cardano" "Cardano" "ADA" 58 3 545 20400000000 450000000,
  demoPrice "solana" "Solana" "SOL" 9842 315 331 42800000000 2100000000,
  demoPrice "ripple" "XRP" "XRP" 62 (-2) (-312) 33500000000 1800000000]

def live (network : Http.Network) (ids : List String) (timeout : Http.Seconds) :
    Http.Exchange Feed.Error (List CryptoPrice) := do
  let document ← (Http.fetchJson network (request ids timeout)).mapError .fetch
  .ofExcept (ofDocument document)

theorem result_live (network : Http.Network) (ids : List String) (timeout : Http.Seconds) :
    (live network ids timeout).result =
      (Http.fetchJson network (request ids timeout)).result.mapError .fetch >>= ofDocument :=
  Http.Exchange.result_bind _ _

def fetch (network : Http.Network) (ids : List String) (timeout : Http.Seconds) :
    Http.Exchange Feed.Error (Feed.Outcome (List CryptoPrice)) :=
  (live network ids timeout).mapResult (Feed.withDemo "Crypto prices" demo)

end CryptoPrice

end TreeExport
