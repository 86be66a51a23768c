import TreeExport.Yaml.Stamp

/-!
Tags of nodes. The tag of a plain scalar is read off its text: the words of the boolean values and of
null, the forms of numbers in several bases, also to base sixty, days and times, and the marks of
merging and of a default.
-/

namespace TreeExport

namespace Yaml

inductive Tag where
  | null
  | bool
  | int
  | float
  | binary
  | timestamp
  | string
  | sequence
  | mapping
  | set
  | orderedMap
  | pairs
  | merge
  | default
  | unknown
  deriving DecidableEq, Repr

namespace Tag

def namespaceText : String := "tag:yaml.org,2002:"

def known : List (String × Tag) := [
  ("null", .null), ("bool", .bool), ("int", .int), ("float", .float), ("binary", .binary),
  ("timestamp", .timestamp), ("str", .string), ("seq", .sequence), ("map", .mapping), ("set", .set),
  ("omap", .orderedMap), ("pairs", .pairs), ("merge", .merge), ("value", .default)]

def ofName (name : String) : Tag :=
  let full := known.map fun (last, tag) => (namespaceText ++ last, tag)
  (full.lookup name).getD .unknown

def booleanWords : List String := [
  "yes", "Yes", "YES", "no", "No", "NO", "true", "True", "TRUE", "false", "False", "FALSE",
  "on", "On", "ON", "off", "Off", "OFF"]

def nullWords : List String := ["~", "null", "Null", "NULL"]

def dropSign : List Char → List Char
  | '-' :: rest => rest
  | '+' :: rest => rest
  | text => text

def isDigitOrJoint (c : Char) : Bool := Json.isDigit c || c = '_'

def isDigits : List Char → Bool
  | [] => false
  | c :: rest => Json.isDigit c && rest.all isDigitOrJoint

def isSixtieth : List Char → Bool
  | [unit] => Json.isDigit unit
  | [ten, unit] => '0' ≤ ten && ten ≤ '5' && Json.isDigit unit
  | _ => false

def isSexagesimal (text : List Char) : Bool :=
  match Text.split ':' text with
  | first :: second :: rest => isDigits first && (second :: rest).all isSixtieth
  | _ => false

def isInteger (text : List Char) : Bool :=
  match dropSign text with
  | ['0'] => true
  | '0' :: 'b' :: rest => !rest.isEmpty && rest.all fun c => c = '0' || c = '1' || c = '_'
  | '0' :: 'x' :: rest => !rest.isEmpty && rest.all fun c => (Json.hexValue? c).isSome || c = '_'
  | '0' :: rest => rest.all fun c => ('0' ≤ c && c ≤ '7') || c = '_'
  | magnitude => isDigits magnitude || isSexagesimal magnitude

def isExponent : List Char → Bool
  | [] => true
  | letter :: sign :: digits =>
    (letter = 'e' || letter = 'E') && (sign = '+' || sign = '-') &&
      !digits.isEmpty && digits.all Json.isDigit
  | _ => false

def isFloat (text : List Char) : Bool :=
  let magnitude := dropSign text
  let whole := magnitude.takeWhile (· != '.')
  match magnitude.drop whole.length with
  | [] => false
  | _ :: fraction =>
    let exponent := fraction.dropWhile isDigitOrJoint
    let word := String.ofList fraction
    (isDigits whole && isExponent exponent) ||
      (isSexagesimal whole && exponent.isEmpty) ||
      (whole.isEmpty && ["inf", "Inf", "INF"].contains word) ||
      (text.headD ' ' == '.' && (["nan", "NaN", "NAN"].contains word ||
        (Json.isDigit (fraction.headD ' ') && isExponent exponent)))

/-- The tag that a plain scalar has by its text. A line feed at the end does not count. -/
def ofPlain (text : String) : Tag :=
  let chars := text.toList
  let chars := if chars.length > 1 && chars.getLast? == some '\n' then chars.dropLast else chars
  let word := String.ofList chars
  if booleanWords.contains word then .bool
  else if isFloat chars then .float
  else if isInteger chars then .int
  else if word = "<<" then .merge
  else if word.isEmpty || nullWords.contains word then .null
  else if (Stamp.ofText? chars).any fun stamp => stamp.full || stamp.clock.isSome then .timestamp
  else if word = "=" then .default
  else if ["!", "&", "*"].contains word then .unknown
  else .string

end Tag

end Yaml

end TreeExport
