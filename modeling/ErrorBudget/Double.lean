import ErrorBudget.Scalar
import ErrorBudget.Decimal.Layout

/-!
# Floating-point scalars

Binary floating point as the numbers that equations are evaluated over. A decimal is read as the
nearest floating-point number, and its text is the shortest that reads back.
-/

set_option autoImplicit false

namespace ErrorBudget

/-- A decimal of this magnitude or more lies above all finite numbers. -/
def overflowExponent : Int := 310

/-- A decimal below this magnitude rounds to zero. -/
def underflowExponent : Int := -330

/-- The floating-point number nearest to `m * 10 ^ e`: infinity if it is too large, and zero if it
is too small. -/
def nearestFloat (m : Nat) (e : Int) : Float :=
  if m = 0 then 0
  else
    let magnitude := (digitCount m : Int) + e
    if overflowExponent < magnitude then 1 / 0
    else if magnitude < underflowExponent then 0
    else Float.ofScientific m (e < 0) e.natAbs

/-- The numbers in binary64, with the functions of the platform's library. -/
instance : Scalar Float where
  zero := 0
  one := 1
  decidableLT := inferInstance
  decidableLE := inferInstance
  ofDecimal := nearestFloat
  integer? x := if x.isFinite then (Binary.ofFloat x).integer? else none
  isNaN := Float.isNaN
  isFinite := Float.isFinite
  infinity := 1 / 0
  nan := 0 / 0
  pi := nearestFloat 3141592653589793 (-15)
  abs := Float.abs
  sqrt := Float.sqrt
  exp := Float.exp
  log := Float.log
  sin := Float.sin
  cos := Float.cos
  tan := Float.tan
  asin := Float.asin
  acos := Float.acos
  atan := Float.atan
  sinh := Float.sinh
  cosh := Float.cosh
  tanh := Float.tanh
  asinh := Float.asinh
  acosh := Float.acosh
  atanh := Float.atanh
  pow := Float.pow

/-- The text of a number in binary64, with the fewest digits that read back. -/
instance : Numeral Float where
  plain := floatText Binary.plain

end ErrorBudget
