import ErrorBudget.Expr.Value

/-!
# The text of an expression

`Expr.print` writes an expression so that it can be read back with the same value. Parentheses are
written where the reading would otherwise change, and only there. A product with the factor `-1`
is written with a minus sign, and a sum whose right term is such a product as a difference.
-/

set_option autoImplicit false

namespace ErrorBudget

namespace Expr

variable {α : Type}

/-- Puts a text in parentheses if asked to. -/
def grouped (inParentheses : Bool) (text : String) : String :=
  if inParentheses then "(" ++ text ++ ")" else text

/-- Sums and differences bind weaker than any other operation. -/
def isSum : Expr α → Bool
  | add _ _ | sub _ _ => true
  | _ => false

/-- Operands of a product that are written in parentheses. -/
def isLoose : Expr α → Bool
  | add _ _ | sub _ _ | div _ _ => true
  | _ => false

section Literals

variable [Scalar α]

/-- Whether an expression is a literal below zero. -/
def isNegativeLiteral : Expr α → Bool
  | number x => decide (x < 0)
  | _ => false

/-- Whether an expression is a literal that is not below zero. -/
def isNonnegativeLiteral : Expr α → Bool
  | number x => decide ((0 : α) ≤ x)
  | _ => false

/-- Denominators that are written without parentheses. -/
def isTightDenominator : Expr α → Bool
  | symbol _ | constant _ | pow _ _ | call _ _ => true
  | e => e.isNonnegativeLiteral

/-- Bases of a power that are written in parentheses. -/
def isLooseBase : Expr α → Bool
  | add _ _ | sub _ _ | mul _ _ | div _ _ | pow _ _ => true
  | e => e.isNegativeLiteral

/-- Exponents that are written without parentheses. -/
def isTightExponent : Expr α → Bool
  | symbol _ | constant _ => true
  | e => e.isNonnegativeLiteral

variable [Numeral α]

/-- Literals of this magnitude and above are not written as integers. -/
def integerBound : Nat := Nat.pow 10 10

/-- The text of a literal: a small integer is written without a fraction, and the numbers that are
not finite are written as the constants with their values. -/
def printNumber (x : α) : String :=
  if Scalar.isNaN x then "nan"
  else if Scalar.isFinite x then
    match Scalar.integer? x with
    | some k => if k.natAbs < integerBound then toString k else Numeral.plain x
    | none => Numeral.plain x
  else if (0 : α) < x then "oo"
  else "-oo"

/-- The text of a product, given the texts of its factors. -/
def printProduct (u v : Expr α) (left right : String) : String :=
  if u.isLiteral (-1) then "-" ++ grouped v.isLoose right
  else grouped u.isLoose left ++ " * " ++ grouped v.isLoose right

/-- The text of an expression. -/
def print : Expr α → String
  | number x => printNumber x
  | symbol name => name
  | constant c => c.name
  | call f u => f.name ++ "(" ++ print u ++ ")"
  | add u v =>
    match v with
    | mul w t =>
      if w.isLiteral (-1) then print u ++ " - " ++ grouped t.isLoose (print t)
      else print u ++ " + " ++ printProduct w t (print w) (print t)
    | v => print u ++ " + " ++ print v
  | sub u v => print u ++ " - " ++ grouped v.isSum (print v)
  | mul u v => printProduct u v (print u) (print v)
  | div u v =>
    grouped u.isSum (print u) ++ " / " ++ grouped (!v.isTightDenominator) (print v)
  | pow u v =>
    grouped u.isLooseBase (print u) ++ "^" ++ grouped (!v.isTightExponent) (print v)

end Literals

end Expr

/-- The text by which an error names its subject. -/
def Subject.print {α : Type} [Scalar α] [Numeral α] : Subject α → String
  | .expression e => e.print
  | .label text => text

end ErrorBudget
