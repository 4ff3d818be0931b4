import ErrorBudget.Error

/-!
# Kinds of errors

What sort of failure an error is, without its particulars. The failure of a stage has the kind of
what failed in it, marked as coming from a stage.
-/

set_option autoImplicit false

namespace ErrorBudget

/-- A kind of failure. -/
inductive ErrorKind where
  | parse
  | malformed
  | evaluation
  | restricted
  | unsatisfied
  | missingValues
  | indeterminate
  | invalidNative
  | singular
  | unknownCombo
  | invalidCombo
  | invalidLink
  | definition
  | shape
  | checkFailed
  | stage (source : ErrorKind)
  | config
  deriving DecidableEq, Repr

/-- The kind of a failure. -/
def Error.kind {α : Type} : Error α → ErrorKind
  | .parse _ => .parse
  | .malformed .. => .malformed
  | .evaluation _ => .evaluation
  | .restricted _ => .restricted
  | .unsatisfied .. => .unsatisfied
  | .missingValues .. => .missingValues
  | .indeterminate .. => .indeterminate
  | .invalidNative .. => .invalidNative
  | .singular _ => .singular
  | .unknownCombo _ => .unknownCombo
  | .invalidCombo .. => .invalidCombo
  | .invalidLink .. => .invalidLink
  | .definition .. => .definition
  | .shape .. => .shape
  | .checkFailed _ => .checkFailed
  | .stage _ source => .stage source.kind
  | .config _ => .config

end ErrorBudget
