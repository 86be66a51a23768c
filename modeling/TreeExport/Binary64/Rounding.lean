import TreeExport.Binary64.Basic

/-!
Numbers to integers: toward zero, and to the nearest one with halves up.
-/

namespace TreeExport

namespace Binary64

inductive RoundingError where
  | nan
  | infinite
  deriving DecidableEq, Repr

def RoundingError.message : RoundingError → String
  | .nan => "cannot convert float NaN to integer"
  | .infinite => "cannot convert float infinity to integer"

def integerBy (round : Finite → Int) : Binary64 → Except RoundingError Int
  | .nan => .error .nan
  | .infinite _ => .error .infinite
  | .finite x => .ok (round x)

def truncate : Binary64 → Except RoundingError Int := integerBy Finite.truncate

def half : Binary64 := ofRatio false 1 2

/-- The nearest integer; a half goes up. The half is added with rounding, so the number just below one
half goes up as well. -/
def roundHalfUp (value : Binary64) : Except RoundingError Int :=
  integerBy Finite.floor (value + half)

end Binary64

end TreeExport
