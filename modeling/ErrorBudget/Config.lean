import ErrorBudget.Error
import ErrorBudget.Limits

/-!
# Configuration

What all solves of a solver share: how far the residual of an equation may be from zero, and the
limits for the texts of equations.
-/

set_option autoImplicit false

namespace ErrorBudget

/-- The configuration of a solver. -/
structure Config (α : Type) where
  /-- The largest magnitude of a residual that counts as zero. -/
  tolerance : α
  /-- Limits for the texts of equations. -/
  limits : Limits

namespace Config

variable {α : Type} [Scalar α]

/-- The configuration of a solver for which none is given. -/
def standard : Config α := ⟨Scalar.ofDecimal 1 (-2), {}⟩

/-- A configuration whose tolerance is finite and not negative, and whose limits are not zero; the
tolerance is looked at first. -/
def validate (c : Config α) : Except (Error α) (Config α) :=
  if !Scalar.isFinite c.tolerance || c.tolerance < 0 then
    .error (.config (.invalidTolerance c.tolerance))
  else if c.limits.depth = 0 || c.limits.size = 0 then .error (.config .zeroLimit)
  else .ok c

end Config

end ErrorBudget
