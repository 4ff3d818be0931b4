import ErrorBudget.Error

/-!
# Known and unknown errors

The variables of the equations fall into three groups. A variable is known if an error is given
for it, unknown if only a value is given, and missing if neither is. Known errors are propagated
onto the unknown variables, so there must be exactly as many unknown variables as equations;
otherwise `Partition.checkDeterminacy` says how many errors to add or to remove, and where.
-/

set_option autoImplicit false

namespace ErrorBudget

/-- The variables with a known and with an unknown error, each group in increasing order. -/
structure Partition where
  /-- Variables for which an error is given. -/
  known : List String
  /-- Variables for which only a value is given. -/
  unknown : List String
  deriving DecidableEq, Repr

namespace Partition

variable {α : Type}

/-- Divides the variables of some equations by what is given for them. -/
def ofInputs (values errors : Point α) (vars : NameSet) : Partition where
  known := vars.toList.filter fun x => x ∈ errors
  unknown := vars.toList.filter fun x => x ∈ values ∧ x ∉ errors

/-- Known is a variable that has an error. -/
theorem mem_known {values errors : Point α} {vars : NameSet} {x : String} :
    x ∈ (ofInputs values errors vars).known ↔ x ∈ vars ∧ x ∈ errors := by
  simp [ofInputs]

/-- Unknown is a variable with a value that has no error. -/
theorem mem_unknown {values errors : Point α} {vars : NameSet} {x : String} :
    x ∈ (ofInputs values errors vars).unknown ↔ x ∈ vars ∧ x ∈ values ∧ x ∉ errors := by
  simp [ofInputs]

/-- The order of the columns of a Jacobian: unknown variables first. -/
def columns (p : Partition) : List String :=
  p.unknown ++ p.known

/-- How to make the number of unknown variables equal to the number of equations. -/
def advice (p : Partition) (equations : Nat) : Advice :=
  let unknowns := p.unknown.length
  if unknowns < equations then .removeErrors (equations - unknowns) p.known
  else .addErrors (unknowns - equations) p.unknown

/-- Requires as many unknown variables as equations. -/
def checkDeterminacy (p : Partition) (equations : Nat) : Except (Error α) Unit :=
  if p.unknown.length = equations then .ok ()
  else .error (.indeterminate equations p.unknown.length (p.advice equations))

end Partition

/-- Names for which something is given although no equation uses them. -/
def unusedVariables {α : Type} (values errors : Point α) (vars : NameSet) : NameSet :=
  NameSet.ofNames ((values.keys ++ errors.keys).filter fun x => x ∉ vars)

/-- Variables of the equations for which neither a value nor an error is given. -/
def missingVariables {α : Type} (values errors : Point α) (vars : NameSet) : NameSet :=
  vars.filter fun x => x ∉ values ∧ x ∉ errors

/-- Missing is a variable with neither a value nor an error. -/
theorem mem_missingVariables {α : Type} {values errors : Point α} {vars : NameSet} {x : String} :
    x ∈ missingVariables values errors vars ↔ x ∈ vars ∧ x ∉ values ∧ x ∉ errors := by
  simp [missingVariables, and_comm, and_assoc]

end ErrorBudget
