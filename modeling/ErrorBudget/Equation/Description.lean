import ErrorBudget.Equation
import ErrorBudget.Text.Quoted

/-!
# Descriptions of equations

A description shows what an equation was made from, its residual and its variables. Functions cannot
be shown.
-/

set_option autoImplicit false

namespace ErrorBudget

namespace Equation

variable {α : Type} [Scalar α] [Numeral α]

/-- The residual of an equation in a description. -/
def describeResidual : Equation α → String
  | symbolic _ residual _ => "Expr(" ++ Quoted.described residual.print ++ ")"
  | native _ _ _ => "Native(..)"

/-- The description of an equation. -/
def describe (eq : Equation α) : String :=
  "Equation \x7b label: " ++ Quoted.described eq.label
    ++ ", residual: " ++ eq.describeResidual
    ++ ", variables: [" ++ listed (eq.vars.map Quoted.described) ++ "] \x7d"

end Equation

end ErrorBudget
