/-!
# Binary floating point as exact numbers

A finite number in binary64 is a sign and `mantissa * 2 ^ exponent` with natural numbers for the
mantissa. Decimal texts are computed from this form in exact arithmetic, so no rounding happens but
the one that a text asks for.
-/

set_option autoImplicit false

namespace ErrorBudget

/-- A finite binary number: a sign, and `mantissa * 2 ^ exponent`. -/
structure Binary where
  /-- Whether the sign is a minus; zero has a sign too. -/
  negative : Bool
  /-- The mantissa, below `2 ^ 53`. -/
  mantissa : Nat
  /-- The exponent of two. -/
  exponent : Int
  /-- Whether the next number below in magnitude is only half as far away as the next above. -/
  narrowBelow : Bool
  deriving Repr

/-- Ten to an integer power as a quotient of natural numbers. -/
def tenPower (k : Int) : Nat × Nat :=
  (Nat.pow 10 k.toNat, Nat.pow 10 (-k).toNat)

/-- Two to an integer power as a quotient of natural numbers. -/
def twoPower (k : Int) : Nat × Nat :=
  (Nat.pow 2 k.toNat, Nat.pow 2 (-k).toNat)

/-- The number of decimal digits of a natural number. -/
def digitCount (n : Nat) : Nat :=
  (Nat.toDigits 10 n).length

/-- The quotient of two natural numbers, rounded to the nearest; a half goes to the even
neighbour. -/
def roundHalfEven (num den : Nat) : Nat :=
  let q := num / den
  let twice := 2 * (num % den)
  if twice < den then q else if den < twice then q + 1 else if q % 2 = 0 then q else q + 1

namespace Binary

/-- The exact form of a floating-point number; its value is meaningful only for a finite one. -/
def ofFloat (x : Float) : Binary :=
  let bits := x.toBits.toNat
  let implicitBit := Nat.pow 2 52
  let field := bits / implicitBit % 2048
  let fraction := bits % implicitBit
  { negative := Nat.pow 2 63 ≤ bits
    mantissa := if field = 0 then fraction else implicitBit + fraction
    exponent := (Nat.max field 1 : Nat) - 1075
    narrowBelow := fraction = 0 && 1 < field }

/-- The magnitude of a number, multiplied by `10 ^ (-k)`, as a quotient of natural numbers. -/
def overTenPower (b : Binary) (k : Int) : Nat × Nat :=
  let two := twoPower b.exponent
  let ten := tenPower k
  (b.mantissa * two.1 * ten.2, two.2 * ten.1)

/-- The number of digits before the decimal point: the `p` with `10 ^ (p - 1) ≤ x < 10 ^ p` for the
magnitude `x` of a number that is not zero; below one tenth it is negative. -/
def leading (b : Binary) : Int :=
  let (num, den) := b.overTenPower 0
  let p : Int := (digitCount num : Int) - digitCount den
  let ten := tenPower p
  if den * ten.1 ≤ num * ten.2 then p + 1 else p

/-- The integer that a number equals, if there is one. -/
def integer? (b : Binary) : Option Int :=
  let two := twoPower b.exponent
  if b.mantissa % two.2 = 0 then
    let n : Int := (b.mantissa * two.1 / two.2 : Nat)
    some (if b.negative then -n else n)
  else none

end Binary

end ErrorBudget
