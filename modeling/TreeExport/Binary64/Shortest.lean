import TreeExport.Binary64.Basic

/-!
The shortest decimal of a number: the fewest digits that read back as the number, of those the
nearest to it, and of two equally near the even one. Each count of digits is tried on the decimal
grid around the number, in exact arithmetic.
-/

namespace TreeExport

namespace Binary64

structure Decimal where
  coefficient : Nat
  power : Int
  deriving DecidableEq, Repr

/-- The least integer `k` with the positive `num / den` below `10 ^ (k + 1)`, for a quotient that
is not a negative power of ten. -/
def leadingPower (num den : Nat) : Int :=
  if den ≤ num then ((Nat.toDigits 10 (num / den)).length : Int) - 1
  else -((Nat.toDigits 10 (den / num)).length : Int)

def scaleDownTen (num den : Nat) (power : Int) : Nat × Nat :=
  match power with
  | .ofNat up => (num, den * Nat.pow 10 up)
  | .negSucc down => (num * Nat.pow 10 (down + 1), den)

/-- The decimal on the grid of step `10 ^ power` that reads back as `x`, if there is one: of the
two neighbours of `x` the nearer, and on a tie the even one. -/
def onGrid? (x : Finite) (num den : Nat) (power : Int) : Option Decimal :=
  let (upper, lower) := scaleDownTen num den power
  let below := upper / lower
  let twice := 2 * (upper % lower)
  let readsBack (coefficient : Nat) : Bool :=
    ofDecimal x.negative coefficient power == .finite x
  let lowerFirst := twice < lower || (twice == lower && below % 2 == 0)
  let (first, second) := if lowerFirst then (below, below + 1) else (below + 1, below)
  if readsBack first then some ⟨first, power⟩
  else if readsBack second then some ⟨second, power⟩
  else none

def Decimal.trim (fuel : Nat) (d : Decimal) : Decimal :=
  match fuel with
  | 0 => d
  | fuel + 1 =>
    if d.coefficient % 10 = 0 ∧ d.coefficient ≠ 0 then
      Decimal.trim fuel ⟨d.coefficient / 10, d.power + 1⟩
    else d

/-- The shortest decimal of a nonzero number; seventeen digits always suffice. -/
def Finite.shortest (x : Finite) : Decimal :=
  let (num, den) := scaleDown x.mantissa 1 (-x.exponent)
  let leading := leadingPower num den
  let found := (List.range 17).findSome? fun (more : Nat) => onGrid? x num den (leading - more)
  (found.getD ⟨x.mantissa, 0⟩).trim 20

end Binary64

end TreeExport
