import Kitematic.PyText
import Mathlib.Data.Int.Log

/-! Floats with their infinities and NaN. A sum is rounded to the nearest number of the
binary64 format. -/

namespace Kitematic.StepExecution
open PyText

inductive PyFloat where
  | finite (q : ℚ)
  | infinite (negative : Bool)
  | nan
  deriving DecidableEq

namespace PyFloat

def nonPositive : PyFloat → Bool
  | .finite q => q ≤ 0
  | .infinite negative => negative
  | .nan => false

def toInt : PyFloat → Except String Int
  | .finite q => .ok (if q < 0 then ⌈q⌉ else ⌊q⌋)
  | .infinite _ => .error "cannot convert float infinity to integer"
  | .nan => .error "cannot convert float NaN to integer"

/-- The binary64 number nearest to `q`, the even one of two. -/
def round (q : ℚ) : PyFloat :=
  if q = 0 then .finite 0
  else
    let unit : ℚ := 2 ^ max (Int.log 2 |q| - 52) (-1074)
    let nearest := roundHalfEven (q / unit) * unit
    if 2 ^ 1024 ≤ |nearest| then .infinite (q < 0) else .finite nearest

def plusOne : PyFloat → PyFloat
  | .finite q => round (q + 1)
  | x => x

def less : PyFloat → PyFloat → Bool
  | .finite p, .finite q => p < q
  | .finite _, .infinite negative => !negative
  | .infinite negative, .finite _ => negative
  | .infinite negative, .infinite negative' => negative && !negative'
  | .nan, _ | _, .nan => false

def atMost : PyFloat → PyFloat → Bool
  | .nan, _ | _, .nan => false
  | x, y => !y.less x

def truthy (x : PyFloat) : Bool := x ≠ .finite 0

end PyFloat

end Kitematic.StepExecution
