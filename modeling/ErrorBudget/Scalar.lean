/-!
# Scalars

The numbers that equations are evaluated over. Every rule of this library, from the derivative of an
expression to the propagation of errors, is written once for all scalars: a program runs it on
binary floating point, and a proof reads the same rule over exact numbers. A scalar may have values
that are no real numbers; `isNaN` and `isFinite` tell them apart.

Two numbers that differ by less than `10 ^ (-10)` count as one where a derivative drops a vanishing
term (`negligible`, `nearOne`). A power with an integer exponent is computed by repeated squaring
(`powInt`), any other by `pow`.
-/

set_option autoImplicit false

namespace ErrorBudget

/-- Numbers with the arithmetic, the comparisons and the elementary functions of an expression. -/
class Scalar (α : Type) extends Zero α, One α, Add α, Sub α, Mul α, Div α, Neg α,
    LT α, LE α, BEq α where
  /-- The order can be tested. -/
  decidableLT : DecidableLT α
  /-- The weak order can be tested. -/
  decidableLE : DecidableLE α
  /-- `ofDecimal m e` is the number `m * 10 ^ e`. -/
  ofDecimal : Nat → Int → α
  /-- The integer that a number equals, if there is one. -/
  integer? : α → Option Int
  /-- Whether the number stands for an undefined result. -/
  isNaN : α → Bool
  /-- Whether the number is neither infinite nor undefined. -/
  isFinite : α → Bool
  /-- The number above all others, where there is one. -/
  infinity : α
  /-- The undefined result, where there is one. -/
  nan : α
  /-- The ratio of a circle's circumference to its diameter. -/
  pi : α
  /-- The absolute value. -/
  abs : α → α
  /-- The square root. -/
  sqrt : α → α
  /-- The exponential function. -/
  exp : α → α
  /-- The natural logarithm. -/
  log : α → α
  /-- The sine. -/
  sin : α → α
  /-- The cosine. -/
  cos : α → α
  /-- The tangent. -/
  tan : α → α
  /-- The inverse of the sine. -/
  asin : α → α
  /-- The inverse of the cosine. -/
  acos : α → α
  /-- The inverse of the tangent. -/
  atan : α → α
  /-- The hyperbolic sine. -/
  sinh : α → α
  /-- The hyperbolic cosine. -/
  cosh : α → α
  /-- The hyperbolic tangent. -/
  tanh : α → α
  /-- The inverse of the hyperbolic sine. -/
  asinh : α → α
  /-- The inverse of the hyperbolic cosine. -/
  acosh : α → α
  /-- The inverse of the hyperbolic tangent. -/
  atanh : α → α
  /-- The power with any exponent. -/
  pow : α → α → α

namespace Scalar

-- Numbers that have operations of their own keep them; these are for scalars in general.
attribute [instance (100)] toZero toOne toAdd toSub toMul toDiv toNeg toLT toLE toBEq

variable {α : Type} [Scalar α]

/-- Whether a scalar is below another can be computed. -/
instance (priority := 100) : DecidableLT α := decidableLT

/-- Whether a scalar is at most another can be computed. -/
instance (priority := 100) : DecidableLE α := decidableLE

/-- The number two. -/
def two : α := 1 + 1

/-- Numbers closer to each other than this count as equal when a term is dropped. -/
def tolerance : α := ofDecimal 1 (-10)

/-- Whether a number is so close to zero that a term with this factor is dropped. -/
def negligible (x : α) : Bool := abs x < tolerance

/-- Whether a number is so close to one that a factor with this value is dropped. -/
def nearOne (x : α) : Bool := abs (x - 1) < tolerance

/-- The sign of a number: `1`, `-1`, zero for either zero, and undefined where the number is. -/
def sign (x : α) : α :=
  if x == 0 then 0 else if (0 : α) < x then 1 else if x < 0 then -1 else x

/-- `r * x ^ n` by repeated squaring, from the lowest binary digit of `n` upwards. -/
def mulPow (r x : α) (n : Nat) : α :=
  let r := if n % 2 = 1 then r * x else r
  if h : n / 2 = 0 then r else mulPow r (x * x) (n / 2)
termination_by n
decreasing_by omega

/-- The power with an integer exponent; a negative one gives the reciprocal of the power. -/
def powInt (x : α) (n : Int) : α :=
  if n < 0 then 1 / mulPow 1 x n.natAbs else mulPow 1 x n.natAbs

/-- The largest magnitude of an exponent for which a power is computed by squaring. -/
def largestExponent : Nat := 2147483647

/-- The power with an exponent written as a literal: by squaring when the literal is an integer that
is not too large, otherwise as for any other exponent. -/
def powLiteral (x n : α) : α :=
  match integer? n with
  | some k => if k.natAbs ≤ largestExponent then powInt x k else pow x n
  | none => pow x n

end Scalar

/-- Numbers that have a text of their own. -/
class Numeral (α : Type) where
  /-- The text of a number. -/
  plain : α → String

end ErrorBudget
