import ErrorBudget.EquationSet
import ErrorBudget.Partition

/-!
# Checking the inputs

Before errors are propagated the inputs are checked: no name may be restricted, the values must
satisfy every equation within the tolerance, and the system must be determinate. `check` ends with
the first failure, `diagnose` collects the messages of all of them. Indices of equations are
positions in the list that is checked.
-/

set_option autoImplicit false

namespace ErrorBudget

/-- What a diagnosis found. -/
structure Report where
  /-- The messages of all failures, in the order of the checks. -/
  messages : List String
  deriving DecidableEq, Repr

namespace Report

/-- Whether nothing was found. -/
def ok (r : Report) : Bool := r.messages.isEmpty

/-- All messages, one per line. -/
def message (r : Report) : String := "\n".intercalate r.messages

/-- A report with messages as a failure. -/
def toExcept {α : Type} (r : Report) : Except (Error α) Unit :=
  if r.ok then .ok () else .error (.checkFailed r.messages)

end Report

namespace Validation

variable {α : Type}

/-- Refuses inputs with the names of restricted constants. -/
def checkRestricted (values errors : Point α) : Except (Error α) Unit :=
  match (restrictedNames (values.keys ++ errors.keys)).toList with
  | [] => .ok ()
  | names => .error (.restricted names)

variable [Scalar α]

/-- What is wrong with the value of the equation at an index: it is not resolved, it has no value,
or it is further from zero than the tolerance. An undefined residual is not within the tolerance.
-/
def residualFailure? (tolerance : α) (values : Point α) (index : Nat) (eq : Equation α) :
    Option (Error α) :=
  match eq.unresolved values with
  | [] =>
    match eq.evaluate values with
    | .error e => some (.evaluation e)
    | .ok residual =>
      if Scalar.abs residual ≤ tolerance then none
      else some (.unsatisfied index eq.subject residual tolerance)
  | names => some (.missingValues index eq.subject names)

/-- What is wrong with the values of some equations, the first of which has the index `index`. -/
def residualFailuresFrom (tolerance : α) (values : Point α) (index : Nat) :
    List (Equation α) → List (Error α)
  | [] => []
  | eq :: eqs =>
    (residualFailure? tolerance values index eq).toList
      ++ residualFailuresFrom tolerance values (index + 1) eqs

/-- What is wrong with the values of some equations. -/
def residualFailures (tolerance : α) (values : Point α) (equations : List (Equation α)) :
    List (Error α) :=
  residualFailuresFrom tolerance values 0 equations

/-- The first failure of a list, as a failure. -/
def firstOf : List (Error α) → Except (Error α) Unit
  | [] => .ok ()
  | e :: _ => .error e

/-- Checks the inputs and ends with the first failure. -/
def check (tolerance : α) (equations : List (Equation α)) (values errors : Point α) :
    Except (Error α) Unit := do
  checkRestricted values errors
  firstOf (residualFailures tolerance values equations)
  let vars := EquationSet.varsOf equations
  (Partition.ofInputs values errors vars).checkDeterminacy equations.length

/-- The messages of a check. -/
def messagesOf [Numeral α] : Except (Error α) Unit → List String
  | .ok () => []
  | .error e => [e.message]

/-- The message about variables for which nothing is given. -/
def missingMessages (missing : List String) : List String :=
  if missing.isEmpty then []
  else [s!"Variables [{listed missing}] have neither a value nor an error"]

/-- Carries out all checks and collects the messages of their failures. -/
def diagnose [Numeral α] (tolerance : α) (equations : List (Equation α))
    (values errors : Point α) : Report :=
  let vars := EquationSet.varsOf equations
  let determinacy : Except (Error α) Unit :=
    (Partition.ofInputs values errors vars).checkDeterminacy equations.length
  { messages :=
      messagesOf (checkRestricted values errors)
        ++ (residualFailures tolerance values equations).map Error.message
        ++ missingMessages (missingVariables values errors vars).toList
        ++ messagesOf determinacy }

end Validation

end ErrorBudget
