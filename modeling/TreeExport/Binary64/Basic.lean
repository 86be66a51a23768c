/-!
Double precision numbers as exact values. A finite number is a sign, a mantissa and a power of two;
`Canonical` makes that form unique, so equality of numbers is equality of their fields. Every
operation is computed exactly on integers and rounded once, to nearest with ties to even.
-/

namespace TreeExport

/-- The mantissa has 53 bits, or fewer at the least exponent. -/
def Binary64.Canonical (mantissa : Nat) (exponent : Int) : Prop :=
  mantissa < Nat.pow 2 53 ∧ -1074 ≤ exponent ∧ exponent ≤ 971 ∧
    (exponent = -1074 ∨ Nat.pow 2 52 ≤ mantissa)

instance (mantissa : Nat) (exponent : Int) : Decidable (Binary64.Canonical mantissa exponent) :=
  inferInstanceAs (Decidable (_ ∧ _ ∧ _ ∧ _))

/-- The number `mantissa * 2 ^ exponent`, negated when `negative` is set. -/
structure Binary64.Finite where
  negative : Bool
  mantissa : Nat
  exponent : Int
  canonical : Binary64.Canonical mantissa exponent
  deriving DecidableEq

inductive Binary64 where
  | nan
  | infinite (negative : Bool)
  | finite (value : Binary64.Finite)
  deriving DecidableEq

namespace Binary64

def zero (negative : Bool) : Binary64 :=
  .finite ⟨negative, 0, -1074, by decide⟩

instance : Inhabited Binary64 := ⟨zero false⟩

/-- A mantissa of at most 53 bits, or the power of two just above them, as a number. A magnitude
that has no canonical form is too large and becomes infinite. -/
def ofRounded (negative : Bool) (mantissa : Nat) (exponent : Int) : Binary64 :=
  let (mantissa, exponent) :=
    if mantissa = Nat.pow 2 53 then (Nat.pow 2 52, exponent + 1) else (mantissa, exponent)
  if canonical : Canonical mantissa exponent then
    .finite ⟨negative, mantissa, exponent, canonical⟩
  else
    .infinite negative

def divideToEven (num den : Nat) : Nat :=
  let quotient := num / den
  let twice := 2 * (num % den)
  if twice < den then quotient
  else if den < twice then quotient + 1
  else if quotient % 2 = 0 then quotient
  else quotient + 1

def scaleDown (num den : Nat) (exponent : Int) : Nat × Nat :=
  match exponent with
  | .ofNat up => (num, den * Nat.pow 2 up)
  | .negSucc down => (num * Nat.pow 2 (down + 1), den)

def ofRatio (negative : Bool) (num den : Nat) : Binary64 :=
  if num = 0 then zero negative
  else
    let guess : Int := max ((num.log2 : Int) - den.log2 - 52) (-1074)
    let (upper, lower) := scaleDown num den guess
    let exponent := if upper / lower < Nat.pow 2 52 then max (guess - 1) (-1074) else guess
    let (upper, lower) := scaleDown num den exponent
    ofRounded negative (divideToEven upper lower) exponent

/-- The number nearest to `coefficient * 10 ^ power`. Powers far outside the range of finite
numbers are decided by the count of digits, so that no huge power is computed. -/
def ofDecimal (negative : Bool) (coefficient : Nat) (power : Int) : Binary64 :=
  if coefficient = 0 then zero negative
  else
    let magnitude : Int := (Nat.toDigits 10 coefficient).length + power
    if magnitude > 400 then .infinite negative
    else if magnitude < -400 then zero negative
    else
      match power with
      | .ofNat up => ofRatio negative (coefficient * Nat.pow 10 up) 1
      | .negSucc down => ofRatio negative coefficient (Nat.pow 10 (down + 1))

def ofInt (n : Int) : Binary64 :=
  ofRatio (n < 0) n.natAbs 1

/-- The value of `x` in units of `2 ^ unit`, for a `unit` not above its exponent. -/
def Finite.inUnits (x : Finite) (unit : Int) : Int :=
  let magnitude : Int := (x.mantissa * Nat.pow 2 (x.exponent - unit).toNat : Nat)
  if x.negative then -magnitude else magnitude

def ofUnits (zeroNegative : Bool) (units : Int) (unit : Int) : Binary64 :=
  if units = 0 then zero zeroNegative
  else
    match unit with
    | .ofNat up => ofRatio (units < 0) (units.natAbs * Nat.pow 2 up) 1
    | .negSucc down => ofRatio (units < 0) units.natAbs (Nat.pow 2 (down + 1))

def add : Binary64 → Binary64 → Binary64
  | .nan, _ => .nan
  | _, .nan => .nan
  | .infinite s, .infinite t => if s = t then .infinite s else .nan
  | .infinite s, .finite _ => .infinite s
  | .finite _, .infinite t => .infinite t
  | .finite x, .finite y =>
    let unit := min x.exponent y.exponent
    ofUnits (x.negative && y.negative) (x.inUnits unit + y.inUnits unit) unit

instance : Add Binary64 := ⟨add⟩

def neg : Binary64 → Binary64
  | .nan => .nan
  | .infinite s => .infinite !s
  | .finite x => .finite { x with negative := !x.negative }

instance : Neg Binary64 := ⟨neg⟩

def isNegative : Binary64 → Bool
  | .nan => false
  | .infinite s => s
  | .finite x => x.negative

def mul (left right : Binary64) : Binary64 :=
  let negative := left.isNegative != right.isNegative
  match left, right with
  | .nan, _ => .nan
  | _, .nan => .nan
  | .infinite _, .infinite _ => .infinite negative
  | .infinite _, .finite x => if x.mantissa = 0 then .nan else .infinite negative
  | .finite x, .infinite _ => if x.mantissa = 0 then .nan else .infinite negative
  | .finite x, .finite y =>
    let magnitude : Int := x.mantissa * y.mantissa
    ofUnits negative (if negative then -magnitude else magnitude) (x.exponent + y.exponent)

instance : Mul Binary64 := ⟨mul⟩

def lt : Binary64 → Binary64 → Bool
  | .nan, _ => false
  | _, .nan => false
  | .infinite s, .infinite t => s && !t
  | .infinite s, .finite _ => s
  | .finite _, .infinite t => !t
  | .finite x, .finite y =>
    let unit := min x.exponent y.exponent
    x.inUnits unit < y.inUnits unit

def eqv : Binary64 → Binary64 → Bool
  | .infinite s, .infinite t => s == t
  | .finite x, .finite y =>
    let unit := min x.exponent y.exponent
    x.inUnits unit == y.inUnits unit
  | _, _ => false

def Finite.magnitude (x : Finite) : Nat × Bool :=
  match x.exponent with
  | .ofNat up => (x.mantissa * Nat.pow 2 up, false)
  | .negSucc down =>
    (x.mantissa / Nat.pow 2 (down + 1), x.mantissa % Nat.pow 2 (down + 1) != 0)

def Finite.truncate (x : Finite) : Int :=
  if x.negative then -(x.magnitude.1 : Int) else x.magnitude.1

def Finite.floor (x : Finite) : Int :=
  let (whole, cut) := x.magnitude
  if x.negative then -(whole : Int) - (if cut then 1 else 0) else whole

def toInt? : Binary64 → Option Int
  | .finite x => if x.magnitude.2 then none else some x.truncate
  | _ => none

def ofInt? (n : Int) : Option Binary64 :=
  match ofInt n with
  | .finite x => some (.finite x)
  | _ => none

end Binary64

end TreeExport
