import TreeExport.Yaml.Cursor

/-!
Days and times as YAML writes them: year, month and day with hyphens, and optionally a time of day with
a fraction of a second and an offset from universal time.
-/

namespace TreeExport

namespace Yaml

structure Clock where
  hour : Nat
  minute : Nat
  second : Nat
  fraction : List Char
  offset : Option Int

/-- A written day, and time of day. A full day has two digits for month and for day. -/
structure Stamp where
  year : Nat
  month : Nat
  day : Nat
  full : Bool
  clock : Option Clock

namespace Stamp

def number (digits : List Char) : Nat := Nat.ofDigitChars 10 digits 0

def digits? (least most : Nat) (text : List Char) : Option (List Char × List Char) :=
  let digits := (text.take most).takeWhile Json.isDigit
  if digits.length < least then none else some (digits, text.drop digits.length)

def behind? (mark : Char) : List Char → Option (List Char)
  | [] => none
  | c :: rest => if c = mark then some rest else none

def dropSpaces (text : List Char) : List Char := text.dropWhile fun c => c = ' ' || c = '\t'

def offset? (text : List Char) : Option Int := do
  match text with
  | ['Z'] => return 0
  | sign :: rest =>
    if sign = '+' ∨ sign = '-' then
      let (hours, rest) ← digits? 1 2 rest
      let minutes ←
        if rest.isEmpty then pure ['0']
        else do
          let (minutes, rest) ← digits? 2 2 (← behind? ':' rest)
          if rest.isEmpty then pure minutes else none
      let total : Int := number hours * 60 + number minutes
      return if sign = '-' then -total else total
    else none
  | [] => none

def clock? (text : List Char) : Option Clock := do
  let (hour, rest) ← digits? 1 2 text
  let (minute, rest) ← digits? 2 2 (← behind? ':' rest)
  let (second, rest) ← digits? 2 2 (← behind? ':' rest)
  let (fraction, rest) :=
    match rest with
    | '.' :: rest => (rest.takeWhile Json.isDigit, rest.dropWhile Json.isDigit)
    | rest => ([], rest)
  let offset ← if rest.isEmpty then pure none else (offset? (dropSpaces rest)).map some
  return ⟨number hour, number minute, number second, fraction, offset⟩

def ofText? (text : List Char) : Option Stamp := do
  let (year, rest) ← digits? 4 4 text
  let (month, rest) ← digits? 1 2 (← behind? '-' rest)
  let (day, rest) ← digits? 1 2 (← behind? '-' rest)
  let full := month.length == 2 && day.length == 2
  let stamp := Stamp.mk (number year) (number month) (number day) full
  match rest with
  | [] => return stamp none
  | c :: after =>
    let rest ←
      if c = 'T' ∨ c = 't' then pure after
      else if c = ' ' ∨ c = '\t' then pure (dropSpaces rest)
      else none
    return stamp (some (← clock? rest))

/-- The value of a written day or time. Digits behind the sixth of a fraction do not count. -/
def value (stamp : Stamp) : Except CalendarError Value :=
  match stamp.clock with
  | none => (Date.make? stamp.year stamp.month stamp.day).map .date
  | some clock =>
    let fraction := clock.fraction.take 6
    let microsecond := number fraction * Nat.pow 10 (6 - fraction.length)
    let time := DateTime.make? stamp.year stamp.month stamp.day clock.hour clock.minute clock.second
      microsecond clock.offset
    time.map .dateTime

end Stamp

end Yaml

end TreeExport
