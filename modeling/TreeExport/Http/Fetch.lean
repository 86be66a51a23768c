import TreeExport.Http.Exchange
import TreeExport.Json
import TreeExport.Text.Case
import TreeExport.Text.Encoding

/-!
Fetching a document in JSON from a server. Redirects are followed, and whatever goes wrong is told apart by its
cause.
-/

namespace TreeExport

namespace Http

inductive FetchError where
  | unreachable (url detail : String)
  | timedOut (url : String) (limit : Seconds)
  | status (url : String) (code : Int)
  | transfer (url detail : String)
  | content (url detail : String)
  | address (detail : String)
  | internal (detail : String)
  deriving DecidableEq

namespace FetchError

def message : FetchError → String
  | .unreachable url detail => s!"Cannot connect to {url}: {detail}"
  | .timedOut url limit => s!"Request to {url} timed out after {limit.text}s"
  | .status url code => s!"{url} returned HTTP {code}"
  | .transfer url detail => s!"HTTP error while fetching {url}: {detail}"
  | .content url detail => s!"Invalid JSON from {url}: {detail}"
  | .address detail => detail
  | .internal detail => detail

def ofExchange : FetchError → Bool
  | .address _ => false
  | .internal _ => false
  | _ => true

end FetchError

def Request.failure (request : Request) (fault : Fault) : FetchError :=
  match fault.kind with
  | .connection => .unreachable request.url fault.detail
  | .timeout => .timedOut request.url request.timeout
  | .transfer => .transfer request.url fault.detail
  | .address => .address fault.detail
  | .content => .content request.url fault.detail
  | .internal => .internal fault.detail

def redirectStatuses : List Int := [301, 302, 303, 307, 308]

def Reply.location? (reply : Reply) : Option String :=
  if redirectStatuses.contains reply.status then
    (reply.headers.find? fun header => Text.lower header.1 == "location").map Prod.snd
  else none

def redirectLimit : Nat := 20

def follow (network : Network) (message : Message) : (limit : Nat) → Exchange Fault Reply
  | 0 => .ofExcept (.error ⟨.transfer, "Exceeded maximum allowed redirects."⟩)
  | limit + 1 => do
    let reply ← send network message
    match reply.location? with
    | none => return reply
    | some location => follow network (message.redirect location) limit

def readBody (request : Request) (reply : Reply) : Except FetchError Value := do
  let text ← (Text.decodeDocument reply.body).mapError fun cause =>
    .content request.url cause.message
  (Json.read text).mapError fun cause => .content request.url cause.message

def readReply (request : Request) (reply : Reply) : Except FetchError Value :=
  if 200 ≤ reply.status ∧ reply.status ≤ 299 then readBody request reply
  else .error (.status request.url reply.status)

def fetchJson (network : Network) (request : Request) : Exchange FetchError Value := do
  let reply ← (follow network request.message (redirectLimit + 1)).mapError request.failure
  .ofExcept (readReply request reply)

end Http

end TreeExport
