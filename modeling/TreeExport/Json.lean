import TreeExport.Value.Basic

/-!
Reading JSON texts. The reader takes the characters that are left and gives back a value and the
characters behind it; a failure is located by how many characters were left where it arose.
Beside the standard the names `NaN`, `Infinity` and `-Infinity` are numbers. Of two members with one
name the place of the first and the value of the last count.
-/

namespace TreeExport

namespace Json

inductive Issue where
  | value
  | memberName
  | colon
  | comma
  | extraData
  | controlCharacter
  | escape
  | unicodeEscape
  | unterminated
  | byteOrderMark
  deriving DecidableEq, Repr

def Issue.message : Issue → String
  | .value => "Expecting value"
  | .memberName => "Expecting property name enclosed in double quotes"
  | .colon => "Expecting ':' delimiter"
  | .comma => "Expecting ',' delimiter"
  | .extraData => "Extra data"
  | .controlCharacter => "Invalid control character at"
  | .escape => "Invalid \\escape"
  | .unicodeEscape => "Invalid \\uXXXX escape"
  | .unterminated => "Unterminated string starting at"
  | .byteOrderMark => "Unexpected UTF-8 BOM (decode using utf-8-sig)"

/-- A failure while reading, with the count of characters left where it arose. -/
inductive Failure where
  | malformed (issue : Issue) (left : Nat)
  | longInteger (digits : Nat)
  deriving DecidableEq, Repr

inductive Error where
  | malformed (issue : Issue) (line column offset : Nat)
  | longInteger (digits : Nat)
  deriving DecidableEq, Repr

def longIntegerMessage (digits : Nat) : String :=
  s!"Exceeds the limit (4300 digits) for integer string conversion: value has {digits} digits; "
    ++ "use sys.set_int_max_str_digits() to increase the limit"

def Error.message : Error → String
  | .malformed issue line column offset =>
    s!"{issue.message}: line {line} column {column} (char {offset})"
  | .longInteger digits => longIntegerMessage digits

def isSpace (c : Char) : Bool :=
  c = ' ' || c = '\t' || c = '\n' || c = '\r'

def skipSpace (text : List Char) : List Char :=
  text.dropWhile isSpace

def hexValue? (c : Char) : Option Nat :=
  if '0' ≤ c ∧ c ≤ '9' then some (c.toNat - '0'.toNat)
  else if 'a' ≤ c ∧ c ≤ 'f' then some (c.toNat - 'a'.toNat + 10)
  else if 'A' ≤ c ∧ c ≤ 'F' then some (c.toNat - 'A'.toNat + 10)
  else none

def fourHex? : List Char → Option Nat
  | a :: b :: c :: d :: _ => do
    let a ← hexValue? a
    let b ← hexValue? b
    let c ← hexValue? c
    let d ← hexValue? d
    return ((a * 16 + b) * 16 + c) * 16 + d
  | _ => none

/-- The character of a code unit. A surrogate that stands alone is no character, and becomes U+FFFD: texts that
hold one, which can neither be printed nor be written to a file, are left out. -/
def charOfUnit (unit : Nat) : Char :=
  if 0xD800 ≤ unit ∧ unit < 0xE000 then Char.ofNat 0xFFFD else Char.ofNat unit

/-- The character written by an escape with a code, and the count of characters after the `u` that
it takes. A pair of surrogates is one character. -/
def readCode (text : List Char) : Except Failure (Char × Nat) :=
  let failure (rest : List Char) : Failure := .malformed .unicodeEscape (rest.length + 1)
  if text.length < 5 then .error (failure text)
  else
    match fourHex? text with
    | none => .error (failure text)
    | some unit =>
      let rest := text.drop 4
      if 0xD800 ≤ unit ∧ unit < 0xDC00 ∧ 6 < rest.length ∧ rest.take 2 = ['\\', 'u'] then
        match fourHex? (rest.drop 2) with
        | none => .error (failure (rest.drop 2))
        | some low =>
          if 0xDC00 ≤ low ∧ low < 0xE000 then
            .ok (Char.ofNat (0x10000 + (unit - 0xD800) * 0x400 + (low - 0xDC00)), 10)
          else .ok (charOfUnit unit, 4)
      else .ok (charOfUnit unit, 4)

def escapedChar? (c : Char) : Option Char :=
  if c = '"' ∨ c = '\\' ∨ c = '/' then some c
  else if c = 'b' then some '\x08'
  else if c = 'f' then some '\x0c'
  else if c = 'n' then some '\n'
  else if c = 'r' then some '\r'
  else if c = 't' then some '\t'
  else none

def readEscape (opening : Nat) : List Char → Except Failure (Char × Nat)
  | [] => .error (.malformed .unterminated opening)
  | 'u' :: rest => do
    let (c, count) ← readCode rest
    return (c, count + 1)
  | c :: rest =>
    match escapedChar? c with
    | some value => .ok (value, 1)
    | none => .error (.malformed .escape (rest.length + 2))

/-- The rest of a quoted text, whose opening quote had `opening` characters left. -/
def readQuoted (opening : Nat) : (text : List Char) → (reversed : List Char) →
    Except Failure (List Char × List Char)
  | [], _ => .error (.malformed .unterminated opening)
  | c :: rest, reversed =>
    if c = '"' then .ok (reversed.reverse, rest)
    else if c = '\\' then
      match readEscape opening rest with
      | .error failure => .error failure
      | .ok (value, count) => readQuoted opening (rest.drop count) (value :: reversed)
    else if c.toNat ≤ 0x1F then .error (.malformed .controlCharacter (rest.length + 1))
    else readQuoted opening rest (c :: reversed)
  termination_by text => text.length
  decreasing_by
    · simp only [List.length_drop, List.length_cons]; omega
    · simp

def isDigit (c : Char) : Bool :=
  '0' ≤ c && c ≤ '9'

def wholeDigits : List Char → List Char
  | [] => []
  | c :: rest =>
    if c = '0' then ['0'] else if isDigit c then c :: rest.takeWhile isDigit else []

def fractionDigits : List Char → List Char
  | '.' :: rest => rest.takeWhile isDigit
  | _ => []

def exponentPart : List Char → Option (Bool × List Char × Nat)
  | c :: rest =>
    if c = 'e' ∨ c = 'E' then
      let (negative, rest, signs) :=
        match rest with
        | '-' :: rest => (true, rest, 1)
        | '+' :: rest => (false, rest, 1)
        | rest => (false, rest, 0)
      let digits := rest.takeWhile isDigit
      if digits.isEmpty then none else some (negative, digits, 1 + signs + digits.length)
    else none
  | [] => none

def digitLimit : Nat := 4300

def readMagnitude (negative : Bool) (text : List Char) : Except Failure (Value × List Char) :=
  let whole := wholeDigits text
  let rest := text.drop whole.length
  let fraction := fractionDigits rest
  let rest := if fraction.isEmpty then rest else rest.drop (fraction.length + 1)
  match exponentPart rest with
  | some (exponentNegative, digits, count) =>
    let exponent : Int := Nat.ofDigitChars 10 digits 0
    let exponent := if exponentNegative then -exponent else exponent
    let coefficient := Nat.ofDigitChars 10 (whole ++ fraction) 0
    .ok (.float (Binary64.ofDecimal negative coefficient (exponent - fraction.length)),
      rest.drop count)
  | none =>
    if fraction.isEmpty then
      if digitLimit < whole.length then .error (.longInteger whole.length)
      else
        let magnitude : Int := Nat.ofDigitChars 10 whole 0
        .ok (.int (if negative then -magnitude else magnitude), rest)
    else
      let coefficient := Nat.ofDigitChars 10 (whole ++ fraction) 0
      .ok (.float (Binary64.ofDecimal negative coefficient (-fraction.length)), rest)

def names : List (List Char × Value) := [
  ("null".toList, .null), ("true".toList, .bool true), ("false".toList, .bool false),
  ("NaN".toList, .float .nan), ("Infinity".toList, .float (.infinite false)),
  ("-Infinity".toList, .float (.infinite true))]

def readScalar (text : List Char) : Except Failure (Value × List Char) :=
  match names.find? fun (name, _) => name.isPrefixOf text with
  | some (name, value) => .ok (value, text.drop name.length)
  | none =>
    let missing : Except Failure (Value × List Char) := .error (.malformed .value text.length)
    match text with
    | '-' :: rest => if (wholeDigits rest).isEmpty then missing else readMagnitude true rest
    | rest => if (wholeDigits rest).isEmpty then missing else readMagnitude false rest

mutual

def readValue : (fuel : Nat) → List Char → Except Failure (Value × List Char)
  | 0, text => .error (.malformed .value text.length)
  | _ + 1, [] => .error (.malformed .value 0)
  | fuel + 1, c :: rest =>
    if c = '"' then do
      let (text, rest) ← readQuoted (rest.length + 1) rest []
      return (.text (String.ofList text), rest)
    else if c = '[' then
      match skipSpace rest with
      | ']' :: rest => .ok (.list [], rest)
      | rest => do
        let (items, rest) ← readItems fuel rest
        return (.list items, rest)
    else if c = '\x7b' then
      match skipSpace rest with
      | '\x7d' :: rest => .ok (.map [], rest)
      | rest => do
        let (entries, rest) ← readMembers fuel rest
        return (Value.ofEntries entries, rest)
    else readScalar (c :: rest)

def readItems : (fuel : Nat) → List Char → Except Failure (List Value × List Char)
  | 0, text => .error (.malformed .value text.length)
  | fuel + 1, text => do
    let (item, rest) ← readValue fuel text
    match skipSpace rest with
    | ']' :: rest => return ([item], rest)
    | ',' :: rest =>
      let (items, rest) ← readItems fuel (skipSpace rest)
      return (item :: items, rest)
    | rest => throw (.malformed .comma rest.length)

def readMembers : (fuel : Nat) → List Char → Except Failure (List (Value × Value) × List Char)
  | 0, text => .error (.malformed .value text.length)
  | fuel + 1, text =>
    match text with
    | '"' :: rest => do
      let (name, rest) ← readQuoted (rest.length + 1) rest []
      match skipSpace rest with
      | ':' :: rest =>
        let (value, rest) ← readValue fuel (skipSpace rest)
        let entry : Value × Value := (.text (String.ofList name), value)
        match skipSpace rest with
        | '\x7d' :: rest => return ([entry], rest)
        | ',' :: rest =>
          let (entries, rest) ← readMembers fuel (skipSpace rest)
          return (entry :: entries, rest)
        | rest => throw (.malformed .comma rest.length)
      | rest => throw (.malformed .colon rest.length)
    | text => throw (.malformed .memberName text.length)

end

def readAll (text : List Char) : Except Failure Value :=
  match text with
  | '\uFEFF' :: _ => .error (.malformed .byteOrderMark text.length)
  | text => do
    let (value, rest) ← readValue (2 * text.length + 2) (skipSpace text)
    match skipSpace rest with
    | [] => return value
    | rest => throw (.malformed .extraData rest.length)

/-- A failure with its place in the text: line and column from one, the offset from zero. -/
def Failure.locate (text : List Char) : Failure → Error
  | .malformed issue left =>
    let offset := text.length - left
    let before := text.take offset
    let column := (before.reverse.takeWhile (· != '\n')).length + 1
    .malformed issue (before.count '\n' + 1) column offset
  | .longInteger digits => .longInteger digits

def read (text : String) : Except Error Value :=
  match readAll text.toList with
  | .ok value => .ok value
  | .error failure => .error (failure.locate text.toList)

end Json

end TreeExport
