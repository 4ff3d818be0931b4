import ErrorBudget.Decimal.Shortest

/-!
# Texts of numbers

Four ways of writing a floating-point number. `plain` writes the shortest digits that read back
and never an exponent; it is used in expressions and messages. `fixed` rounds to a number of
places after the point and is used in tables. `scientific` rounds to a number of places after the
first digit. `exchanged` is the form for data exchange: shortest digits again, with an exponent
for very large and very small numbers.
-/

set_option autoImplicit false

namespace ErrorBudget

namespace Decimal

/-- As many zeros as asked for. -/
def zeros (n : Nat) : String :=
  String.ofList (List.replicate n '0')

/-- A natural number with at least this many digits, zeros put in front. -/
def padded (width n : Nat) : String :=
  let text := toString n
  zeros (width - text.length) ++ text

/-- The digits with the point after the first `before` of them; one zero stands before a leading
point. -/
def pointed (digits : List Char) (before : Nat) : String :=
  String.ofList (digits.take before) ++ "." ++ String.ofList (digits.drop before)

/-- A decimal without an exponent. -/
def positional (d : Decimal) : String :=
  let digits := (toString d.digits).toList
  let before := digits.length + d.exponent
  if 0 ≤ d.exponent then toString d.digits ++ zeros d.exponent.toNat
  else if 0 < before then pointed digits before.toNat
  else "0." ++ zeros (-before).toNat ++ toString d.digits

end Decimal

namespace Binary

/-- The sign of a number as it is written in front of it. -/
def signText (b : Binary) : String :=
  if b.negative then "-" else ""

/-- A finite number with the shortest digits and no exponent. -/
def plain (b : Binary) : String :=
  b.signText ++ if b.mantissa = 0 then "0" else b.shortest.positional

/-- A finite number with `places` digits after the point, rounded to the nearest, a half to the even
neighbour. -/
def fixed (places : Nat) (b : Binary) : String :=
  let (num, den) := b.overTenPower (-(places : Int))
  let digits := (Decimal.padded (places + 1) (roundHalfEven num den)).toList
  b.signText ++ Decimal.pointed digits (digits.length - places)

/-- A finite number with one digit before and `places` digits after the point, and an exponent of
ten. -/
def scientific (places : Nat) (b : Binary) : String :=
  let write (digits : Nat) (exponent : Int) : String :=
    b.signText ++ Decimal.pointed (Decimal.padded (places + 1) digits).toList 1 ++ "e"
      ++ toString exponent
  if b.mantissa = 0 then write 0 0
  else
    let exponent := b.leading - 1
    let (num, den) := b.overTenPower (exponent - places)
    let digits := roundHalfEven num den
    if digits = Nat.pow 10 (places + 1) then write (Nat.pow 10 places) (exponent + 1)
    else write digits exponent

/-- From this exponent of ten on, data exchange writes an exponent. -/
def largeExponent : Int := 16

/-- Below this exponent of ten, data exchange writes an exponent. -/
def smallExponent : Int := -5

/-- A finite number for data exchange: without an exponent it has a digit on both sides of the
point, and an exponent is written with its sign. -/
def exchanged (b : Binary) : String :=
  if b.mantissa = 0 then b.signText ++ "0.0"
  else
    let d := b.shortest
    let digits := (toString d.digits).toList
    let exponent := d.exponent + digits.length - 1
    if smallExponent ≤ exponent && exponent < largeExponent then
      b.signText ++ d.positional ++ if 0 ≤ d.exponent then ".0" else ""
    else
      let mantissa := if digits.length = 1 then toString d.digits else Decimal.pointed digits 1
      let sign := if exponent < 0 then "-" else "+"
      b.signText ++ mantissa ++ "e" ++ sign ++ toString exponent.natAbs

end Binary

/-- The text of a floating-point number, where `finite` writes the finite ones. -/
def floatText (finite : Binary → String) (x : Float) : String :=
  if x.isNaN then "NaN"
  else if x.isFinite then finite (Binary.ofFloat x)
  else if x < 0 then "-inf"
  else "inf"

end ErrorBudget
