import TreeExport.Numeral
import TreeExport.Schema.Issue
import TreeExport.Text.Encoding
import TreeExport.Value.Basic

/-!
Reading scalars. Readers are lenient where nothing is lost: a number may come as text or as a number
of another kind with the same value, a truth value as one of its common names, a text as bytes.
-/

namespace TreeExport

namespace Schema

def textOf? : Value → Option (Option String)
  | .text value => some (some value)
  | .bytes data => some ((Text.decodeUtf8 ⟨data.toArray⟩).toOption)
  | _ => none

def text (value : Value) : Checked String :=
  match textOf? value with
  | some (some text) => .valid text
  | some none => Checked.problem .textEncoding
  | none => Checked.problem .text

def optionalText : Value → Checked (Option String)
  | .null => .valid none
  | value => (text value).map some

def dropUnderscores (text : List Char) : List Char :=
  let pieces := Text.split '_' text
  if pieces.any List.isEmpty then text else pieces.flatten

def dropLeadingZeros : (last : Char) → List Char → Option (List Char)
  | last, [] => some [last]
  | last, c :: rest =>
    if c = '0' then dropLeadingZeros c rest
    else if c = '_' then (if last = '_' then none else dropLeadingZeros c rest)
    else if c = '.' then some (last :: c :: rest)
    else if Json.isDigit c then some (c :: rest)
    else none

def dropZeroFraction (text : List Char) : List Char :=
  let whole := text.takeWhile (· != '.')
  let fraction := text.drop (whole.length + 1)
  if whole.length < text.length && fraction.all (· == '0') then whole else text

def plainInteger? (text : List Char) : Option Int :=
  let (negative, digits) := Numeral.splitSign text
  if digits.isEmpty || !digits.all Json.isDigit then none
  else
    let magnitude : Int := Nat.ofDigitChars 10 digits 0
    some (if negative then -magnitude else magnitude)

def cleanInteger? (text : List Char) : Option (List Char) := do
  let unsigned ←
    match text with
    | '+' :: '-' :: _ => none
    | '+' :: rest => some rest
    | text => some text
  let stripped ←
    match unsigned with
    | [] => none
    | '0' :: rest => dropLeadingZeros '0' rest
    | c :: rest => if Json.isDigit c || c = '-' then some (c :: rest) else none
  return dropUnderscores (dropZeroFraction stripped)

def integerTextLimit : Nat := 4300

/-- The integer that a text writes: zeros in front, a fraction of zeros and underscores between
digits do not count. -/
def integerOfText (text : String) : Checked Int :=
  let trimmed := Text.trimEnds Text.isWhiteSpace text.toList
  if integerTextLimit < trimmed.length then Checked.problem .integerSize
  else
    match plainInteger? trimmed with
    | some value => .valid value
    | none =>
      match (cleanInteger? trimmed).bind plainInteger? with
      | some value => .valid value
      | none => Checked.problem .integerText

def wordLimit : Int := 9223372036854775808

def integerOfFloat (value : Binary64) : Checked Int :=
  match value with
  | .finite x =>
    if x.magnitude.2 then Checked.problem .integerFraction
    else if wordLimit ≤ x.truncate ∨ x.truncate ≤ -wordLimit then Checked.problem .integerSize
    else .valid x.truncate
  | _ => Checked.problem .notFinite

def integer : Value → Checked Int
  | .bool value => .valid (if value then 1 else 0)
  | .int value => .valid value
  | .float value => integerOfFloat value
  | value =>
    match textOf? value with
    | some (some text) => integerOfText text
    | some none => Checked.problem .integerText
    | none => Checked.problem .integer

def numberOfText (text : String) : Checked Binary64 :=
  let trimmed := Text.trimEnds Text.isWhiteSpace text.toList
  match Numeral.float? trimmed with
  | some value => .valid value
  | none =>
    match Numeral.float? (dropUnderscores trimmed) with
    | some value => .valid value
    | none => Checked.problem .numberText

/-- A number. An integer of a document that is too large is infinite. -/
def number (origin : Origin) : Value → Checked Binary64
  | .bool value => .valid (Binary64.ofInt (if value then 1 else 0))
  | .int value =>
    match origin, Binary64.ofInt? value with
    | _, some number => .valid number
    | .document, none => .valid (.infinite (value < 0))
    | .value, none => Checked.problem .number
  | .float value => .valid value
  | value =>
    match textOf? value with
    | some (some text) => numberOfText text
    | some none => Checked.problem .numberText
    | none => Checked.problem .number

def optionalNumber (origin : Origin) : Value → Checked (Option Binary64)
  | .null => .valid none
  | value => (number origin value).map some

def truthNames : List (String × Bool) := [
  ("1", true), ("t", true), ("true", true), ("y", true), ("yes", true), ("on", true),
  ("0", false), ("f", false), ("false", false), ("n", false), ("no", false), ("off", false)]

def booleanOfInteger (value : Int) : Checked Bool :=
  if value = 0 then .valid false
  else if value = 1 then .valid true
  else Checked.problem .booleanText

def boolean : Value → Checked Bool
  | .bool value => .valid value
  | .int value =>
    if -wordLimit ≤ value ∧ value < wordLimit then booleanOfInteger value
    else Checked.problem .boolean
  | .float value =>
    match integerOfFloat value with
    | .valid integer => booleanOfInteger integer
    | .invalid _ => Checked.problem .boolean
  | value =>
    match textOf? value with
    | some (some text) =>
      match truthNames.lookup (String.ofList (text.toList.map Char.toLower)) with
      | some truth => .valid truth
      | none => Checked.problem .booleanText
    | some none => Checked.problem .booleanText
    | none => Checked.problem .boolean

def path : Value → Checked Path
  | .text value => .valid (Path.ofString value)
  | .path value => .valid value
  | _ => Checked.problem .path

end Schema

end TreeExport
