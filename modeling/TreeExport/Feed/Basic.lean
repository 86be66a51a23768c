import TreeExport.Binary64.Rounding
import TreeExport.Http.Fetch
import TreeExport.Numeral
import TreeExport.Schema.Issue

/-!
Feeds of live data. A feed makes one request and reads the document that comes back; if anything about
the exchange or the document is wrong, fixed demo data take its place and a warning says why.
-/

namespace TreeExport

inductive AccessError where
  | missingKey (name : String)
  | sequenceKey (kind : String)
  | textKey
  | noParts (kind : String)
  | noItems (kind : String)
  deriving DecidableEq, Repr

def AccessError.message : AccessError → String
  | .missingKey name => String.ofList (Text.quoted name.toList)
  | .sequenceKey kind => s!"{kind} indices must be integers or slices, not str"
  | .textKey => "string indices must be integers, not 'str'"
  | .noParts kind => s!"'{kind}' object is not subscriptable"
  | .noItems kind => s!"'{kind}' object is not iterable"

inductive ConversionError where
  | numeral (cause : Numeral.Error)
  | rounding (cause : Binary64.RoundingError)
  | notNumber (kind : String)
  | notInteger (kind : String)
  | tooLarge
  deriving DecidableEq, Repr

def ConversionError.message : ConversionError → String
  | .numeral cause => cause.message
  | .rounding cause => cause.message
  | .notNumber kind => s!"float() argument must be a string or a real number, not '{kind}'"
  | .notInteger kind =>
    s!"int() argument must be a string, a bytes-like object or a real number, not '{kind}'"
  | .tooLarge => "int too large to convert to float"

namespace Value

def part (value : Value) (name : String) : Except AccessError Value :=
  match value with
  | .map entries =>
    match lookup? entries name with
    | some value => .ok value
    | none => .error (.missingKey name)
  | .text _ => .error .textKey
  | .list _ => .error (.sequenceKey "list")
  | .endless => .error (.sequenceKey "list")
  | .tuple _ => .error (.sequenceKey "tuple")
  | .bytes _ => .error (.sequenceKey "byte")
  | value => .error (.noParts value.qualifiedKindName)

/-- The items of a value: those of a sequence, the keys of a map, or the characters of a text. -/
def items : Value → Except AccessError (List Value)
  | .list items => .ok items
  | .tuple items => .ok items
  | .set items => .ok items
  | .map entries => .ok (entries.map Prod.fst)
  | .text given => .ok (given.toList.map fun c => .text (String.singleton c))
  | .bytes data => .ok (data.map fun byte => .int byte.toNat)
  | value => .error (.noItems value.qualifiedKindName)

def toNumber : Value → Except ConversionError Binary64
  | .float value => .ok value
  | .text given => (Numeral.float given).mapError .numeral
  | value =>
    match value.integer? with
    | some value => match Binary64.ofInt? value with
      | some number => .ok number
      | none => .error .tooLarge
    | none => .error (.notNumber value.qualifiedKindName)

/-- The integer of a value, which may be written as text; a number is cut toward zero. -/
def toInteger : Value → Except ConversionError Int
  | .float value => value.truncate.mapError .rounding
  | .text given => (Numeral.integer 10 given).mapError .numeral
  | value =>
    match value.integer? with
    | some value => .ok value
    | none => .error (.notInteger value.qualifiedKindName)

end Value

namespace Feed

inductive Error where
  | fetch (cause : Http.FetchError)
  | invalid (failure : Schema.Failure)
  | access (cause : AccessError)
  | conversion (cause : ConversionError)
  | unexpectedShape (source : String)
  deriving DecidableEq

namespace Error

def message : Error → String
  | .fetch cause => cause.message
  | .invalid failure => failure.report
  | .access cause => cause.message
  | .conversion cause => cause.message
  | .unexpectedShape source => s!"Unexpected {source} response shape"

/-- Whether demo data stand in after an error. A number that is too large is not made up for. -/
def isRecoverable : Error → Bool
  | .fetch cause => cause.ofExchange
  | .conversion .tooLarge => false
  | .conversion (.rounding .infinite) => false
  | _ => true

end Error

structure Outcome (α : Type) where
  data : α
  warning : Option String

variable {α : Type}

def withDemo (subject : String) (demo : α) (live : Except Error α) : Except Error (Outcome α) :=
  match live with
  | .ok data => .ok ⟨data, none⟩
  | .error cause =>
    if cause.isRecoverable then
      .ok ⟨demo, some s!"{subject} unavailable ({cause.message}); using demo data."⟩
    else .error cause

end Feed

end TreeExport
