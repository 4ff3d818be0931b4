import ErrorBudget.Scalar

/-!
# Functions

The functions that an expression may call. Each takes one argument, so a call is a function and an
expression, and a call of an unknown function cannot be written down.
-/

set_option autoImplicit false

namespace ErrorBudget

/-- A function of the grammar. -/
inductive Func where
  | sin
  | cos
  | tan
  | cot
  | sec
  | csc
  | asin
  | acos
  | atan
  | sinh
  | cosh
  | tanh
  | asinh
  | acosh
  | atanh
  | exp
  | log
  | ln
  | sqrt
  | abs
  | sign
  deriving DecidableEq, Repr

namespace Func

/-- The functions of the grammar. -/
def all : List Func :=
  [sin, cos, tan, cot, sec, csc, asin, acos, atan, sinh, cosh, tanh, asinh, acosh, atanh, exp, log,
    ln, sqrt, abs, sign]

/-- The name of a function in an expression. -/
def name : Func → String
  | sin => "sin"
  | cos => "cos"
  | tan => "tan"
  | cot => "cot"
  | sec => "sec"
  | csc => "csc"
  | asin => "asin"
  | acos => "acos"
  | atan => "atan"
  | sinh => "sinh"
  | cosh => "cosh"
  | tanh => "tanh"
  | asinh => "asinh"
  | acosh => "acosh"
  | atanh => "atanh"
  | exp => "exp"
  | log => "log"
  | ln => "ln"
  | sqrt => "sqrt"
  | abs => "abs"
  | sign => "sign"

/-- The function of a name. -/
def ofName? (s : String) : Option Func :=
  all.find? fun f => f.name == s

/-- Every function is found under its own name. -/
theorem ofName?_name (f : Func) : ofName? f.name = some f := by
  cases f <;> decide

/-- The number of arguments of every function. -/
def arity : Nat := 1

/-- The value of a function: `cot`, `sec` and `csc` are reciprocals, and `log` and `ln` are two
names of the natural logarithm. -/
def apply {α : Type} [Scalar α] : Func → α → α
  | sin, x => Scalar.sin x
  | cos, x => Scalar.cos x
  | tan, x => Scalar.tan x
  | cot, x => 1 / Scalar.tan x
  | sec, x => 1 / Scalar.cos x
  | csc, x => 1 / Scalar.sin x
  | asin, x => Scalar.asin x
  | acos, x => Scalar.acos x
  | atan, x => Scalar.atan x
  | sinh, x => Scalar.sinh x
  | cosh, x => Scalar.cosh x
  | tanh, x => Scalar.tanh x
  | asinh, x => Scalar.asinh x
  | acosh, x => Scalar.acosh x
  | atanh, x => Scalar.atanh x
  | exp, x => Scalar.exp x
  | log, x => Scalar.log x
  | ln, x => Scalar.log x
  | sqrt, x => Scalar.sqrt x
  | abs, x => Scalar.abs x
  | sign, x => Scalar.sign x

end Func

end ErrorBudget
