import ErrorBudget.Expr.Basic

/-!
# Partial derivatives

The derivative of an expression with respect to one variable, all others held fixed. The rules are
those of calculus; what they add is that a term or a factor which vanishes is dropped while the
derivative is built, so that a derivative stays small enough to be evaluated at every solve.

Two ways of dropping are used. The rules for sums, products, quotients and powers drop a literal
that is negligible, or a factor near one (`sum`, `difference`, `product`). The chain rule of a
function drops a factor only when it is exactly zero or one (`scaled`).
-/

set_option autoImplicit false

namespace ErrorBudget

namespace Expr

variable {α : Type} [Scalar α]

/-- The literal zero. -/
def zero : Expr α := number 0

/-- The literal one. -/
def one : Expr α := number 1

/-- The negative of an expression: a literal changes its sign, anything else is multiplied by
`-1`. -/
def negate : Expr α → Expr α
  | number x => number (-x)
  | e => mul (number (-1)) e

/-- The square of an expression. -/
def square (u : Expr α) : Expr α := pow u (number Scalar.two)

/-- A sum, with a negligible term dropped. -/
def sum (u v : Expr α) : Expr α :=
  if u.isNegligible then v else if v.isNegligible then u else add u v

/-- A difference, with a negligible term dropped. -/
def difference (u v : Expr α) : Expr α :=
  if v.isNegligible then u else if u.isNegligible then negate v else sub u v

/-- A product: zero when a factor is negligible, and without a factor near one. -/
def product (u v : Expr α) : Expr α :=
  if u.isNegligible || v.isNegligible then zero
  else if u.isNearOne then v
  else if v.isNearOne then u
  else mul u v

/-- A product in which a factor is dropped only if it is exactly zero or one. -/
def scaled (u v : Expr α) : Expr α :=
  if u.isLiteral 0 || v.isLiteral 0 then zero
  else if u.isLiteral 1 then v
  else if v.isLiteral 1 then u
  else mul u v

/-- A quotient, zero when the numerator is negligible. -/
def quotient (u v : Expr α) : Expr α :=
  if u.isNegligible then zero else div u v

/-- The chain rule: the derivative of a call at `u`, when `u'` is the derivative of `u`. -/
def chain : Func → (u u' : Expr α) → Expr α
  | .sin, u, u' => scaled (call .cos u) u'
  | .cos, u, u' => scaled (negate (call .sin u)) u'
  | .tan, u, u' => scaled (square (call .sec u)) u'
  | .cot, u, u' => scaled (negate (square (call .csc u))) u'
  | .sec, u, u' => scaled (mul (call .sec u) (call .tan u)) u'
  | .csc, u, u' => scaled (negate (mul (call .csc u) (call .cot u))) u'
  | .asin, u, u' => quotient u' (call .sqrt (sub one (square u)))
  | .acos, u, u' => quotient (negate u') (call .sqrt (sub one (square u)))
  | .atan, u, u' => quotient u' (add one (square u))
  | .sinh, u, u' => scaled (call .cosh u) u'
  | .cosh, u, u' => scaled (call .sinh u) u'
  | .tanh, u, u' => scaled (sub one (square (call .tanh u))) u'
  | .asinh, u, u' => quotient u' (call .sqrt (add (square u) one))
  | .acosh, u, u' => quotient u' (call .sqrt (sub (square u) one))
  | .atanh, u, u' => quotient u' (sub one (square u))
  | .exp, u, u' => scaled (call .exp u) u'
  | .log, u, u' => quotient u' u
  | .ln, u, u' => quotient u' u
  | .sqrt, u, u' => quotient u' (mul (number Scalar.two) (call .sqrt u))
  | .abs, u, u' => scaled (call .sign u) u'
  | .sign, _, _ => zero

/-- The quotient rule, when `u'` and `v'` are the derivatives of `u` and `v`. A fixed denominator
divides the derivative of the numerator. -/
def quotientRule (u v u' v' : Expr α) : Expr α :=
  if v'.isNegligible then
    if u'.isNegligible then zero else if v.isNearOne then u' else div u' v
  else
    let left := product u' v
    let right := product u v'
    div (if left.isNegligible then negate right else sub left right) (square v)

/-- `u ^ (v - 1)`, where the exponent is lowered at once if `v` is a literal, and the square lowers
to `u` itself. -/
def lowered (u : Expr α) : Expr α → Expr α
  | number n => if n == Scalar.two then u else pow u (number (n - 1))
  | v => pow u (sub v one)

/-- The power rule for a fixed exponent, when `u'` is the derivative of the base. -/
def powerRule (u v u' : Expr α) : Expr α :=
  if u'.isNegligible then zero
  else if v.isLiteral 0 then zero
  else if v.isLiteral 1 then u'
  else product v (product (lowered u v) u')

/-- The rule for an exponent that varies, by differentiating the logarithm: `u ^ v` times the
derivative of `v * log u`. -/
def exponentRule (u v u' v' : Expr α) : Expr α :=
  let left := product v' (call .log u)
  let right := if u'.isNegligible then zero else product v (div u' u)
  product (pow u v) (sum left right)

/-- The partial derivative of an expression with respect to the variable `x`. -/
def derive (x : String) : Expr α → Expr α
  | number _ => zero
  | constant _ => zero
  | symbol name => if name == x then one else zero
  | call f u => if u.contains x then chain f u (derive x u) else zero
  | add u v => sum (derive x u) (derive x v)
  | sub u v => difference (derive x u) (derive x v)
  | mul u v => sum (product (derive x u) v) (product u (derive x v))
  | div u v => quotientRule u v (derive x u) (derive x v)
  | pow u v =>
    if v.contains x then exponentRule u v (derive x u) (derive x v) else powerRule u v (derive x u)

end Expr

end ErrorBudget
