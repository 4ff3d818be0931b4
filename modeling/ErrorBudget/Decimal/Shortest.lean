import ErrorBudget.Decimal.Binary

/-!
# The shortest decimal that reads back

Reading a decimal rounds it to the nearest binary number, so every binary number stands for an
interval of decimals: from half way to its neighbour below to half way to its neighbour above, the
ends included when the mantissa is even. `Binary.shortest` finds a decimal with the fewest digits in
that interval, and of several the one nearest to the number itself.

A grid of decimals with one digit more is searched only when the one before has no point in the
interval, and on each grid only the two neighbours of the number are looked at: if any point of the
grid lies in the interval, so does one of them.
-/

set_option autoImplicit false

namespace ErrorBudget

/-- The decimal `digits * 10 ^ exponent`. -/
structure Decimal where
  /-- The digits, read as one natural number. -/
  digits : Nat
  /-- The exponent of ten. -/
  exponent : Int
  deriving DecidableEq, Repr

namespace Decimal

/-- Takes zeros off the end of the digits, at most as many as the first argument says. -/
def trimZeros : Nat → Decimal → Decimal
  | 0, d => d
  | n + 1, d => if d.digits % 10 = 0 then trimZeros n ⟨d.digits / 10, d.exponent + 1⟩ else d

end Decimal

namespace Binary

/-- The point of the grid of multiples of `10 ^ k` that stands for a number: of its two neighbours
on the grid, the nearer one of those that read back as the number. -/
def onGrid? (b : Binary) (k : Int) : Option Nat :=
  let two := twoPower (b.exponent - 2)
  let ten := tenPower k
  let point := ten.1 * two.2
  let unit := two.1 * ten.2
  let value := 4 * b.mantissa * unit
  let low := (4 * b.mantissa - if b.narrowBelow then 1 else 2) * unit
  let high := (4 * b.mantissa + 2) * unit
  let inside (c : Nat) : Bool :=
    if b.mantissa % 2 = 0 then low ≤ c * point && c * point ≤ high
    else low < c * point && c * point < high
  let c := value / point
  match inside c, inside (c + 1) with
  | true, true => some (if value - c * point < (c + 1) * point - value then c else c + 1)
  | true, false => some c
  | false, true => some (c + 1)
  | false, false => none

/-- As many digits as any binary number can need. -/
def mostDigits : Nat := 17

/-- The shortest decimal that reads back as the magnitude of a number that is not zero, and the
nearest to it of those. -/
def shortest (b : Binary) : Decimal :=
  let p := b.leading
  let found := (List.range' 1 mostDigits).findSome? fun (n : Nat) =>
    (b.onGrid? (p - n)).map fun c => Decimal.trimZeros mostDigits ⟨c, p - n⟩
  found.getD ⟨0, 0⟩

end Binary

end ErrorBudget
