import TreeExport.Text.Case
import TreeExport.Yaml.Tag

/-!
The values of scalars. A written tag is obeyed even where the text does not have the form that it would
need without the tag, so every reading may fail.
-/

namespace TreeExport

namespace Yaml

def booleans : List (String × Bool) := [
  ("yes", true), ("no", false), ("true", true), ("false", false), ("on", true), ("off", false)]

def booleanOf (text : String) : Except Error Bool :=
  let word := Text.lower text
  match booleans.lookup word with
  | some value => .ok value
  | none => .error (.unknownBoolean word)

def signedMagnitude (text : String) : Except Error (Bool × List Char) :=
  match text.toList.filter (· != '_') with
  | [] => .error .emptyNumber
  | chars => .ok (Numeral.splitSign chars)

def integerOf (base : Nat) (text : List Char) : Except Error Int :=
  (Numeral.integer base (String.ofList text)).mapError .numeral

def sixtieths (text : List Char) : List (List Char) := Text.split ':' text

def magnitudeOf (text : List Char) : Except Error Int :=
  match text with
  | [] => .error .emptyNumber
  | ['0'] => .ok 0
  | '0' :: 'b' :: rest => integerOf 2 rest
  | '0' :: 'x' :: rest => integerOf 16 rest
  | '0' :: _ => integerOf 8 text
  | _ =>
    if text.contains ':' then do
      let digits ← (sixtieths text).mapM (integerOf 10)
      return digits.foldl (fun value digit => value * 60 + digit) 0
    else integerOf 10 text

def integerValue (text : String) : Except Error Int := do
  let (negative, magnitude) ← signedMagnitude text
  let value ← magnitudeOf magnitude
  return if negative then -value else value

/-- The sum of places to base sixty, the least one first, where the first has a certain weight. -/
def sumPlaces (weight : Int) (sum : Binary64) : List Binary64 → Except Error Binary64
  | [] => .ok sum
  | digit :: rest =>
    match Binary64.ofInt? weight with
    | none => .error .largeNumber
    | some factor => sumPlaces (weight * 60) (sum + digit * factor) rest

def floatMagnitude (text : String) : Except Error Binary64 :=
  if text = ".inf" then .ok (.infinite false)
  else if text = ".nan" then .ok .nan
  else if text.toList.contains ':' then do
    let digits ← (sixtieths text.toList).mapM fun piece =>
      (Numeral.float (String.ofList piece)).mapError Error.numeral
    sumPlaces 1 (Binary64.zero false) digits.reverse
  else (Numeral.float text).mapError .numeral

def floatValue (text : String) : Except Error Binary64 := do
  let (negative, magnitude) ← signedMagnitude (Text.lower text)
  let value ← floatMagnitude (String.ofList magnitude)
  return if negative then -value else value

def sextet? (c : Char) : Option Nat :=
  if 'A' ≤ c ∧ c ≤ 'Z' then some (c.toNat - 'A'.toNat)
  else if 'a' ≤ c ∧ c ≤ 'z' then some (c.toNat - 'a'.toNat + 26)
  else if '0' ≤ c ∧ c ≤ '9' then some (c.toNat - '0'.toNat + 52)
  else if c = '+' then some 62
  else if c = '/' then some 63
  else none

/-- Bytes in base 64. Characters outside its alphabet do not count, and padding that completes a group
of four ends the data. `place` is the position in the group, `left` what is left of its last byte. -/
def decodeBase64 (place left padding : Nat) : List Char → Option (List UInt8)
  | [] => if place = 0 then some [] else none
  | c :: rest =>
    if c = '=' then
      if place < 2 then decodeBase64 place left padding rest
      else if 4 ≤ place + padding + 1 then some []
      else decodeBase64 place left (padding + 1) rest
    else
      match sextet? c with
      | none => decodeBase64 place left padding rest
      | some value =>
        if place = 0 then decodeBase64 1 value 0 rest
        else if place = 1 then
          (decodeBase64 2 (value % 16) 0 rest).map ((left * 4 + value / 16).toUInt8 :: ·)
        else if place = 2 then
          (decodeBase64 3 (value % 4) 0 rest).map ((left * 16 + value / 4).toUInt8 :: ·)
        else (decodeBase64 0 0 0 rest).map ((left * 64 + value).toUInt8 :: ·)

def binaryValue (text : String) : Except Error (List UInt8) :=
  if text.toList.all (·.toNat < 0x80) then
    match decodeBase64 0 0 0 text.toList with
    | some bytes => .ok bytes
    | none => .error .malformed
  else .error .malformed

def timestampValue (text : String) : Except Error Value :=
  let chars := text.toList
  let chars := if chars.getLast? == some '\n' then chars.dropLast else chars
  match Stamp.ofText? chars with
  | none => .error .noTimestamp
  | some stamp => stamp.value.mapError .calendar

def Tag.scalarValue? (tag : Tag) (text : String) : Option (Except Error Value) :=
  match tag with
  | .null => some (.ok .null)
  | .bool => some ((booleanOf text).map .bool)
  | .int => some ((integerValue text).map .int)
  | .float => some ((floatValue text).map .float)
  | .binary => some ((binaryValue text).map .bytes)
  | .timestamp => some (timestampValue text)
  | .string => some (.ok (.text text))
  | _ => none

end Yaml

end TreeExport
