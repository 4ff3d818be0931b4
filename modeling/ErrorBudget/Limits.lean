/-!
# Limits

How large an expression may be that is read from a text.
-/

set_option autoImplicit false

namespace ErrorBudget

/-- Bounds on the depth and on the number of nodes of an expression. -/
structure Limits where
  /-- The largest depth that is accepted. -/
  depth : Nat := 100
  /-- The largest number of nodes that is accepted. -/
  size : Nat := 10000
  deriving DecidableEq, Repr

end ErrorBudget
