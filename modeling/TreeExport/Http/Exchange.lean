import TreeExport.Binary64.Layout
import TreeExport.Http.Url
import TreeExport.Value.Display

/-!
Exchanges with servers. A network is a function from messages to replies. Work that asks it carries the
messages that it sent beside its result, so that what is sent can be told from what comes back.
-/

namespace TreeExport

namespace Http

inductive Seconds where
  | whole (count : Int)
  | exact (count : Binary64)
  deriving DecidableEq

namespace Seconds

def value : Seconds → Value
  | .whole count => .int count
  | .exact count => .float count

def text : Seconds → String
  | .whole count => String.ofList (Value.integerText count)
  | .exact count => String.ofList (count.render .display)

def connectLimit : Int := 5

def forConnection (limit : Seconds) : Seconds :=
  let longest := Seconds.exact (Binary64.ofInt connectLimit)
  match limit with
  | .whole count => if connectLimit < count then longest else limit
  | .exact count => if (Binary64.ofInt connectLimit).lt count then longest else limit

end Seconds

def defaultTimeout : Seconds := .exact (Binary64.ofInt 10)

structure Request where
  url : String
  parameters : Option (List (String × Value))
  headers : Option (List (String × String))
  timeout : Seconds

structure Message where
  request : Request
  address : Url
  redirects : Nat

def Request.message (request : Request) : Message := ⟨request, Url.ofString request.url, 0⟩

def Message.redirect (message : Message) (location : String) : Message :=
  ⟨message.request, message.address.follow location, message.redirects + 1⟩

inductive FaultKind where
  | connection
  | timeout
  | transfer
  | address
  | content
  | internal
  deriving DecidableEq, Repr

structure Fault where
  kind : FaultKind
  detail : String
  deriving DecidableEq, Repr

structure Reply where
  status : Int
  headers : List (String × String)
  body : List UInt8
  deriving DecidableEq, Repr

/-- Servers may look at all of a message, also at the parameters and headers of its request. -/
abbrev Network := Message → Except Fault Reply

/-- Work that sends messages: those that it sent, and its result. -/
structure Exchange (ε α : Type) where
  sent : List Message
  result : Except ε α

def send (network : Network) (message : Message) : Exchange Fault Reply :=
  ⟨[message], network message⟩

namespace Exchange

variable {ε δ α β : Type}

def ofExcept (result : Except ε α) : Exchange ε α := ⟨[], result⟩

def andThen (work : Exchange ε α) (further : α → Exchange ε β) : Exchange ε β :=
  match work.result with
  | .ok value => ⟨work.sent ++ (further value).sent, (further value).result⟩
  | .error cause => ⟨work.sent, .error cause⟩

instance : Monad (Exchange ε) where
  pure value := ofExcept (.ok value)
  bind := andThen

def mapResult (change : Except ε α → Except δ β) (work : Exchange ε α) : Exchange δ β :=
  ⟨work.sent, change work.result⟩

def mapError (wrap : ε → δ) (work : Exchange ε α) : Exchange δ α :=
  work.mapResult (Except.mapError wrap)

@[simp] theorem result_ofExcept (result : Except ε α) : (ofExcept result).result = result := rfl

@[simp] theorem sent_mapResult (change : Except ε α → Except δ β) (work : Exchange ε α) :
    (work.mapResult change).sent = work.sent := rfl

@[simp] theorem result_mapResult (change : Except ε α → Except δ β) (work : Exchange ε α) :
    (work.mapResult change).result = change work.result := rfl

@[simp] theorem sent_mapError (wrap : ε → δ) (work : Exchange ε α) :
    (work.mapError wrap).sent = work.sent := rfl

@[simp] theorem result_mapError (wrap : ε → δ) (work : Exchange ε α) :
    (work.mapError wrap).result = work.result.mapError wrap := rfl

@[simp] theorem result_bind (work : Exchange ε α) (further : α → Exchange ε β) :
    (work >>= further).result = work.result >>= fun value => (further value).result := by
  show (andThen work further).result = _
  unfold andThen
  cases work.result <;> rfl

theorem bind_of_ok {work : Exchange ε α} {value : α} (done : work.result = .ok value)
    (further : α → Exchange ε β) :
    work >>= further = ⟨work.sent ++ (further value).sent, (further value).result⟩ := by
  show andThen work further = _
  rw [andThen, done]

theorem bind_of_error {work : Exchange ε α} {cause : ε} (failed : work.result = .error cause)
    (further : α → Exchange ε β) : work >>= further = ⟨work.sent, .error cause⟩ := by
  show andThen work further = _
  rw [andThen, failed]

@[simp] theorem sent_bind_ofExcept (work : Exchange ε α) (further : α → Except ε β) :
    (work >>= fun value => ofExcept (further value)).sent = work.sent := by
  cases done : work.result with
  | ok value =>
      rw [bind_of_ok done]
      exact List.append_nil work.sent
  | error cause => rw [bind_of_error done]

end Exchange

end Http

end TreeExport
