import ErrorBudget.Equation
import ErrorBudget.Mat.Basic
import ErrorBudget.Partition

/-!
# Jacobians

The partial derivatives of some equations at a point: a row for each equation, and a column for each
variable, the unknown ones first and then the known ones. A variable that does not occur in an
equation has the derivative zero there.
-/

set_option autoImplicit false

namespace ErrorBudget

/-- The partial derivatives of equations at a point. -/
structure Jacobian (α : Type) where
  /-- The number of equations. -/
  equations : Nat
  /-- The unknown variables, which have the first columns. -/
  unknown : List String
  /-- The known variables, which have the last columns. -/
  known : List String
  /-- The derivatives. -/
  cells : Mat α equations (unknown.length + known.length)

namespace Jacobian

variable {α : Type}

/-- The variables in the order of the columns. -/
def columns (J : Jacobian α) : List String :=
  J.unknown ++ J.known

/-- Every column is one of an unknown or of a known variable. -/
theorem length_columns (J : Jacobian α) :
    J.columns.length = J.unknown.length + J.known.length := by
  simp [columns]

/-- The columns of the unknown variables. -/
def unknownBlock (J : Jacobian α) : Mat α J.equations J.unknown.length :=
  Mat.ofFn fun i j => J.cells i (j.castAdd J.known.length)

/-- The columns of the known variables. -/
def knownBlock (J : Jacobian α) : Mat α J.equations J.known.length :=
  Mat.ofFn fun i j => J.cells i (j.natAdd J.unknown.length)

/-- Whether there are as many unknown variables as equations. -/
def IsSquare (J : Jacobian α) : Prop := J.equations = J.unknown.length

/-- Squareness is a comparison of two numbers. -/
instance (J : Jacobian α) : Decidable J.IsSquare :=
  inferInstanceAs (Decidable (J.equations = J.unknown.length))

/-- The derivative of the equation of a row with respect to a variable that has a column. -/
def get? (J : Jacobian α) (row : Nat) (x : String) : Option α :=
  if h : row < J.equations then
    (J.columns.finIdxOf? x).map fun j => J.cells ⟨row, h⟩ (j.cast J.length_columns)
  else none

variable [Scalar α]

/-- The derivatives of an equation with respect to its variables, each of which must be among the
columns. -/
def rowOf (columns : List String) (values : Point α) (eq : Equation α) :
    Except (EvalError α) (Point α) :=
  match eq.vars.filter fun x => x ∉ columns with
  | [] => eq.vars.foldlM (fun row x => (eq.partialAt x values).map (row.insert x)) ∅
  | names => .error ⟨eq.subject, .noInput names⟩

/-- The Jacobian with given rows; an entry that a row does not have is zero. -/
def ofRows (p : Partition) (rows : List (Point α)) : Jacobian α where
  equations := rows.length
  unknown := p.unknown
  known := p.known
  cells := Mat.ofFn fun i j =>
    (rows.get i).getD (p.columns.get (j.cast (by simp [Partition.columns]))) 0

/-- The Jacobian of some equations. -/
def ofEquations (equations : List (Equation α)) (p : Partition) (values : Point α) :
    Except (EvalError α) (Jacobian α) :=
  (equations.mapM (rowOf p.columns values)).map (ofRows p)

end Jacobian

end ErrorBudget
