import TreeExport.Binary64.Shortest

/-!
How a number is written. The digits are the shortest ones; a `Layout` holds what a format decides
beside them: which numbers are written without an exponent, how wide an exponent is, and the names
of the values that are not numbers.
-/

namespace TreeExport

namespace Binary64

structure Layout where
  /-- The least decimal exponent that is written positionally. -/
  positionalFrom : Int
  /-- The least decimal exponent that is again written with an exponent. -/
  positionalBelow : Int
  /-- The least count of digits in an exponent. -/
  exponentWidth : Nat
  nanText : String
  infinityText : String

def Layout.literal : Layout := ⟨-4, 16, 2, "NaN", "Infinity"⟩

def Layout.display : Layout := ⟨-4, 16, 2, "nan", "inf"⟩

def Layout.saved : Layout := ⟨-5, 16, 1, "null", "null"⟩

def positional (digits : List Char) (point : Int) : List Char :=
  if point ≤ 0 then
    '0' :: '.' :: (List.replicate (-point).toNat '0' ++ digits)
  else
    let whole := digits.take point.toNat
    let padded := whole ++ List.replicate (point.toNat - digits.length) '0'
    let fraction := digits.drop point.toNat
    padded ++ '.' :: (if fraction.isEmpty then ['0'] else fraction)

def scientific (layout : Layout) (digits : List Char) (exponent : Int) : List Char :=
  let mantissa :=
    match digits with
    | [] => ['0']
    | [digit] => [digit]
    | digit :: rest => digit :: '.' :: rest
  let sign := if exponent < 0 then '-' else '+'
  let power := Nat.toDigits 10 exponent.natAbs
  mantissa ++ 'e' :: sign :: (List.replicate (layout.exponentWidth - power.length) '0' ++ power)

def Finite.renderMagnitude (layout : Layout) (x : Finite) : List Char :=
  if x.mantissa = 0 then ['0', '.', '0']
  else
    let decimal := x.shortest
    let digits := Nat.toDigits 10 decimal.coefficient
    let exponent := decimal.power + digits.length - 1
    if layout.positionalFrom ≤ exponent ∧ exponent < layout.positionalBelow then
      positional digits (exponent + 1)
    else
      scientific layout digits exponent

def render (layout : Layout) : Binary64 → List Char
  | .nan => layout.nanText.toList
  | .infinite negative =>
    (if negative then ['-'] else []) ++ layout.infinityText.toList
  | .finite x =>
    (if x.negative then ['-'] else []) ++ x.renderMagnitude layout

end Binary64

end TreeExport
