import ErrorBudget.Decimal.Literal
import ErrorBudget.Scalar
import ErrorBudget.Text.Blank

/-!
# Numbers in configurations

Integers are written in decimal, or with the letters `x`, `o` and `b` behind a zero in base
sixteen, eight and two; decimal ones may have a sign and must not start with a superfluous zero.
Other numbers need a fraction or an exponent, with digits on both sides of the point, or are one
of `inf` and `nan`. Between two digits there may be an underscore.
-/

set_option autoImplicit false

namespace ErrorBudget

/-- A number as it is written in a configuration. -/
inductive ConfigNumber (α : Type) where
  | integer (k : Int)
  | decimal (x : α)

namespace ConfigNumber

/-- The digits of a text in which single underscores may stand between digits. -/
def ungroup? (isDigit : Char → Bool) (cs : List Char) : Option (List Char) :=
  let groups := pieces (· == '_') cs
  if groups.all fun group => !group.isEmpty && group.all isDigit then some groups.flatten else none

/-- Whether a character is a digit in base eight. -/
def isOctal (c : Char) : Bool := '0' ≤ c && c ≤ '7'

/-- Whether a character is a digit in base two. -/
def isBinary (c : Char) : Bool := c = '0' || c = '1'

/-- Whether a character is a digit in base sixteen. -/
def isHexadecimal (c : Char) : Bool :=
  c.isDigit || ('a' ≤ c && c ≤ 'f') || ('A' ≤ c && c ≤ 'F')

/-- The value of a digit in a base up to sixteen. -/
def digitValue (c : Char) : Nat :=
  if c.isDigit then c.toNat - '0'.toNat
  else if 'a' ≤ c then c.toNat - 'a'.toNat + 10
  else c.toNat - 'A'.toNat + 10

/-- The natural number that digits stand for in a base. -/
def valueIn (base : Nat) (digits : List Char) : Nat :=
  digits.foldl (fun n c => base * n + digitValue c) 0

/-- The digits of a decimal natural number without superfluous zeros. -/
def decimalDigits? (cs : List Char) : Option (List Char) :=
  match ungroup? Char.isDigit cs with
  | some ['0'] => some ['0']
  | some ('0' :: _) => none
  | digits => digits

/-- Whether a text starts with a minus, and the text without its sign. -/
def unsigned : List Char → Bool × List Char
  | '-' :: cs => (true, cs)
  | '+' :: cs => (false, cs)
  | cs => (false, cs)

/-- An integer. -/
def integer? : List Char → Option Int
  | '0' :: 'x' :: cs => (ungroup? isHexadecimal cs).map fun digits => valueIn 16 digits
  | '0' :: 'o' :: cs => (ungroup? isOctal cs).map fun digits => valueIn 8 digits
  | '0' :: 'b' :: cs => (ungroup? isBinary cs).map fun digits => valueIn 2 digits
  | cs =>
    let (negative, cs) := unsigned cs
    (decimalDigits? cs).map fun digits =>
      let n : Int := valueIn 10 digits
      if negative then -n else n

/-- The exponent of a number. -/
def exponent? (cs : List Char) : Option Literal.Exponent :=
  let (negative, cs) := unsigned cs
  (ungroup? Char.isDigit cs).map fun digits => ⟨'e', if negative then some '-' else none, digits⟩

/-- The part of a number before its exponent, as the literal of its digits. -/
def mantissa? (cs : List Char) : Option Literal :=
  match splitFirst? (· == '.') cs with
  | none => (decimalDigits? cs).map fun whole => ⟨whole, none, none⟩
  | some (whole, fraction) => do
    let whole ← decimalDigits? whole
    let fraction ← ungroup? Char.isDigit fraction
    return ⟨whole, some fraction, none⟩

/-- A number with a fraction or an exponent, as a literal. -/
def literal? (cs : List Char) : Option Literal :=
  match splitFirst? Literal.isMark cs with
  | none => (mantissa? cs).filter fun literal => literal.fraction.isSome
  | some (mantissa, exponent) => do
    let literal ← mantissa? mantissa
    let exponent ← exponent? exponent
    return { literal with exponent := some exponent }

variable {α : Type} [Scalar α]

/-- A number that is not an integer, without its sign. A number too large to be finite is refused
unless it is written as infinity. -/
def magnitude? (cs : List Char) : Option α :=
  if cs = "inf".toList then some Scalar.infinity
  else if cs = "nan".toList then some Scalar.nan
  else do
    let literal ← literal? cs
    let (m, e) ← literal.value?
    let x := Scalar.ofDecimal m e
    if Scalar.isFinite x then some x else none

/-- Reads a number. -/
def read? (cs : List Char) : Option (ConfigNumber α) :=
  match integer? cs with
  | some k => some (integer k)
  | none =>
    let (negative, cs) := unsigned cs
    (magnitude? cs).map fun x => decimal (if negative then -x else x)

/-- The least integer that can be written, `-2 ^ 63`. -/
def leastInteger : Int := -9223372036854775808

/-- The largest integer that can be written, `2 ^ 64 - 1`. -/
def largestInteger : Int := 18446744073709551615

/-- The number as a scalar. -/
def toScalar? : ConfigNumber α → Option α
  | decimal x => some x
  | integer k =>
    if leastInteger ≤ k && k ≤ largestInteger then
      let x : α := Scalar.ofDecimal k.natAbs 0
      some (if k < 0 then -x else x)
    else none

/-- The number as a natural number. -/
def toNat? : ConfigNumber α → Option Nat
  | decimal _ => none
  | integer k => if 0 ≤ k && k ≤ largestInteger then some k.toNat else none

end ConfigNumber

end ErrorBudget
