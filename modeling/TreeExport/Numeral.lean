import TreeExport.Binary64.Basic
import TreeExport.Json
import TreeExport.Text.Blank
import TreeExport.Text.Digit
import TreeExport.Text.Quoted

/-!
Numbers written by people: white space around them, a sign of either kind, digits of any script, and
single underscores between digits.
-/

namespace TreeExport

namespace Numeral

inductive Error where
  | notInteger (base : Nat) (text : String)
  | notFloat (text : String)
  | longInteger (digits : Nat)
  deriving DecidableEq, Repr

def quoteLimit : Nat := 200

def Error.message : Error → String
  | .notInteger base text =>
    s!"invalid literal for int() with base {base}: "
      ++ String.ofList ((Text.quoted text.toList).take quoteLimit)
  | .notFloat text =>
    "could not convert string to float: " ++ String.ofList (Text.quoted text.toList)
  | .longInteger digits => Json.longIntegerMessage digits

/-- A text with the digits of all scripts as the basic ones, and without white space at its ends. -/
def normalize (text : List Char) : List Char :=
  (Text.trimEnds Text.isWhiteSpace text).map fun c =>
    match Text.digitValue? c with
    | some value => Nat.digitChar value
    | none => c

def splitSign : List Char → Bool × List Char
  | '-' :: rest => (true, rest)
  | '+' :: rest => (false, rest)
  | text => (false, text)

def digitOf? (base : Nat) (c : Char) : Option Nat :=
  let value? :=
    if '0' ≤ c ∧ c ≤ '9' then some (c.toNat - '0'.toNat)
    else if 'a' ≤ c ∧ c ≤ 'z' then some (c.toNat - 'a'.toNat + 10)
    else if 'A' ≤ c ∧ c ≤ 'Z' then some (c.toNat - 'A'.toNat + 10)
    else none
  value?.filter (· < base)

/-- The digits of a text with single underscores between them; `joint` says that an underscore may
come next. -/
def joinedDigits? (base : Nat) : (joint : Bool) → List Char → Option (List Nat)
  | joint, [] => if joint then some [] else none
  | joint, c :: rest =>
    if c = '_' then (if joint then joinedDigits? base false rest else none)
    else do
      let digit ← digitOf? base c
      let digits ← joinedDigits? base true rest
      return digit :: digits

def baseLetter (base : Nat) (c : Char) : Bool :=
  (base == 2 && (c == 'b' || c == 'B')) || (base == 8 && (c == 'o' || c == 'O')) ||
    (base == 16 && (c == 'x' || c == 'X'))

def dropBase (base : Nat) (text : List Char) : List Char :=
  match text with
  | '0' :: letter :: rest =>
    if baseLetter base letter then
      match rest with
      | '_' :: rest => rest
      | rest => rest
    else text
  | text => text

/-- The integer that a text writes to some base. That it starts with too many digits counts before what
is behind them. -/
def integer (base : Nat) (text : String) : Except Error Int :=
  let (negative, magnitude) := splitSign (normalize text.toList)
  let magnitude := dropBase base magnitude
  let run := magnitude.takeWhile fun c => c = '_' || (digitOf? base c).isSome
  match joinedDigits? base false run with
  | none => .error (.notInteger base text)
  | some digits =>
    if base == 10 && Json.digitLimit < digits.length then .error (.longInteger digits.length)
    else if run.length < magnitude.length then .error (.notInteger base text)
    else
      let value : Nat := digits.foldl (fun value digit => value * base + digit) 0
      .ok (if negative then -(value : Int) else value)

def isWord (word : String) (text : List Char) : Bool :=
  text.map Char.toLower == word.toList

def plainFloat? (negative : Bool) (text : List Char) : Option Binary64 :=
  let whole := text.takeWhile Json.isDigit
  let rest := text.drop whole.length
  let (fraction, rest) :=
    match rest with
    | '.' :: rest => (rest.takeWhile Json.isDigit, rest.dropWhile Json.isDigit)
    | rest => ([], rest)
  if whole.isEmpty && fraction.isEmpty then none
  else
    let coefficient := Nat.ofDigitChars 10 (whole ++ fraction) 0
    match rest with
    | [] => some (Binary64.ofDecimal negative coefficient (-fraction.length))
    | rest =>
      match Json.exponentPart rest with
      | none => none
      | some (exponentNegative, digits, count) =>
        if count = rest.length then
          let exponent : Int := Nat.ofDigitChars 10 digits 0
          let exponent := if exponentNegative then -exponent else exponent
          some (Binary64.ofDecimal negative coefficient (exponent - fraction.length))
        else none

def float? (text : List Char) : Option Binary64 :=
  let (negative, magnitude) := splitSign text
  if isWord "inf" magnitude || isWord "infinity" magnitude then some (.infinite negative)
  else if isWord "nan" magnitude then some .nan
  else plainFloat? negative magnitude

def dropJoints? : (joint : Bool) → List Char → Option (List Char)
  | _, [] => some []
  | joint, '_' :: rest =>
    match rest with
    | c :: _ => if joint && Json.isDigit c then dropJoints? false rest else none
    | [] => none
  | _, c :: rest => (dropJoints? (Json.isDigit c) rest).map (c :: ·)

def float (text : String) : Except Error Binary64 :=
  match (dropJoints? false (normalize text.toList)).bind float? with
  | some value => .ok value
  | none => .error (.notFloat text)

end Numeral

end TreeExport
