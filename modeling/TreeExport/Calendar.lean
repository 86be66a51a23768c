/-!
Dates, times of day and offsets of the proleptic Gregorian calendar, with the checks on their fields
and their written forms.
-/

namespace TreeExport

inductive CalendarError where
  | year (given : Nat)
  | month
  | day
  | hour
  | minute
  | second
  | offset (minutes : Int)
  deriving DecidableEq, Repr

structure Date where
  year : Nat
  month : Nat
  day : Nat
  deriving DecidableEq, Repr

structure DateTime where
  date : Date
  hour : Nat
  minute : Nat
  second : Nat
  microsecond : Nat
  offset : Option Int
  deriving DecidableEq, Repr

namespace Calendar

def isLeap (year : Nat) : Bool :=
  year % 4 == 0 && (year % 100 != 0 || year % 400 == 0)

def daysIn (year month : Nat) : Nat :=
  if month = 2 then (if isLeap year then 29 else 28)
  else if month = 4 ∨ month = 6 ∨ month = 9 ∨ month = 11 then 30
  else 31

def daysBefore (year : Nat) : Nat :=
  let past := year - 1
  past * 365 + past / 4 - past / 100 + past / 400

def padded (width n : Nat) : List Char :=
  let digits := Nat.toDigits 10 n
  List.replicate (width - digits.length) '0' ++ digits

def spanFields (minutes : Int) : List Char :=
  let days := minutes / 1440
  let seconds := minutes % 1440 * 60
  let daysText := if days = 0 then [] else "days=".toList ++ (toString days).toList
  let secondsText := if seconds = 0 then [] else "seconds=".toList ++ (toString seconds).toList
  let fields := [daysText, secondsText].filter (!·.isEmpty)
  let inner := if fields.isEmpty then ['0'] else [',', ' '].intercalate fields
  "datetime.timedelta(".toList ++ inner ++ [')']

end Calendar

def CalendarError.message : CalendarError → String
  | .year given => s!"year {given} is out of range"
  | .month => "month must be in 1..12"
  | .day => "day is out of range for month"
  | .hour => "hour must be in 0..23"
  | .minute => "minute must be in 0..59"
  | .second => "second must be in 0..59"
  | .offset minutes =>
    "offset must be a timedelta strictly between -timedelta(hours=24) and timedelta(hours=24), not "
      ++ String.ofList (Calendar.spanFields minutes) ++ "."

namespace Date

def make? (year month day : Nat) : Except CalendarError Date :=
  if year < 1 ∨ 9999 < year then .error (.year year)
  else if month < 1 ∨ 12 < month then .error .month
  else if day < 1 ∨ Calendar.daysIn year month < day then .error .day
  else .ok ⟨year, month, day⟩

def text (date : Date) : List Char :=
  Calendar.padded 4 date.year ++ '-' :: Calendar.padded 2 date.month ++
    '-' :: Calendar.padded 2 date.day

def ordinal (date : Date) : Nat :=
  let months := (List.range (date.month - 1)).map fun month => Calendar.daysIn date.year (month + 1)
  Calendar.daysBefore date.year + months.foldl (· + ·) 0 + date.day

def fields (date : Date) : List Char :=
  s!"datetime.date({date.year}, {date.month}, {date.day})".toList

end Date

namespace DateTime

def make? (year month day hour minute second microsecond : Nat) (offset : Option Int) :
    Except CalendarError DateTime := do
  match offset with
  | some minutes => if 1440 ≤ minutes.natAbs then throw (.offset minutes)
  | none => pure ()
  let date ← Date.make? year month day
  if 23 < hour then throw .hour
  if 59 < minute then throw .minute
  if 59 < second then throw .second
  return ⟨date, hour, minute, second, microsecond, offset⟩

def offsetText (minutes : Int) : List Char :=
  let sign := if minutes < 0 then '-' else '+'
  sign :: Calendar.padded 2 (minutes.natAbs / 60) ++ ':' :: Calendar.padded 2 (minutes.natAbs % 60)

def text (time : DateTime) : List Char :=
  let fraction :=
    if time.microsecond = 0 then [] else '.' :: Calendar.padded 6 time.microsecond
  let offset := match time.offset with
    | none => []
    | some minutes => offsetText minutes
  time.date.text ++ ' ' :: Calendar.padded 2 time.hour ++ ':' :: Calendar.padded 2 time.minute ++
    ':' :: Calendar.padded 2 time.second ++ fraction ++ offset

def instant (time : DateTime) (offset : Int) : Int :=
  let minutes : Int := time.date.ordinal * 1440 + time.hour * 60 + time.minute
  ((minutes - offset) * 60 + time.second) * 1000000 + time.microsecond

/-- Whether two times are the same: the same instant, or the same fields where both lack an
offset. -/
def same (left right : DateTime) : Bool :=
  match left.offset, right.offset with
  | some a, some b => left.instant a == right.instant b
  | none, none => left == right
  | _, _ => false

def fields (time : DateTime) : List Char :=
  let date := time.date
  let clock :=
    if time.microsecond ≠ 0 then s!", {time.second}, {time.microsecond}"
    else if time.second ≠ 0 then s!", {time.second}"
    else ""
  let zone := match time.offset with
    | none => []
    | some 0 => ", tzinfo=datetime.timezone.utc".toList
    | some minutes =>
      ", tzinfo=datetime.timezone(".toList ++ Calendar.spanFields minutes ++ [')']
  s!"datetime.datetime({date.year}, {date.month}, {date.day}, {time.hour}, {time.minute}{clock}".toList
    ++ zone ++ [')']

end DateTime

end TreeExport
