import ErrorBudget.Jacobian
import ErrorBudget.Mat.Inverse
import ErrorBudget.Table

/-!
# Propagation of errors

To first order, the errors `u` of the unknown variables follow from the errors `k` of the known ones
by `Ju u + Jk k = 0`, with the columns of the Jacobian divided into the two groups. The propagated
errors are bounds: every entry of the inverse of `Ju`, of `Jk` and of the errors is taken with its
magnitude, so no cancellation is hoped for. Constant error components of the known variables add to
their errors, and those of the unknown variables enter through `Ju`:

  `|Ju⁻¹| (|Jk| (xk + ck) + |Ju| cu)`

The way in which `Ju` is inverted is a parameter. Tolerances combine linearly. Standard deviations
combine in quadrature: errors are squared first, and the root is taken at the end.
-/

set_option autoImplicit false

namespace ErrorBudget

/-- How errors combine. -/
inductive Combination where
  /-- Errors are tolerances, and their magnitudes add up. -/
  | linear
  /-- Errors are standard deviations, and their squares add up. -/
  | quadrature
  deriving DecidableEq, Repr

namespace Combination

variable {α : Type} [Scalar α]

/-- The quantity that adds up. -/
def weigh : Combination → α → α
  | linear, x => Scalar.abs x
  | quadrature, x => x * x

/-- The error that a sum of such quantities stands for. -/
def unweigh : Combination → α → α
  | linear, x => x
  | quadrature, x => Scalar.sqrt x

/-- The quantities that add up, for some variables; a variable without an error has the error
zero. -/
def column (how : Combination) (errors : Point α) (names : List String) :
    Vector α names.length :=
  Vector.ofFn fun i => how.weigh (errors.getD (names.get i) 0)

end Combination

namespace Jacobian

variable {α : Type} [Scalar α]

/-- The inverse of the columns of the unknown variables, if it is found and is finite. -/
def inverseBy? (J : Jacobian α) (invert : Mat.Inversion α) (square : J.IsSquare) :
    Option (Mat α J.unknown.length J.unknown.length) :=
  (invert.find? (J.unknownBlock.castRows square)).filter fun B => B.all Scalar.isFinite

/-- The inverse of the columns of the unknown variables, if it exists and is finite. -/
def inverse? (J : Jacobian α) (square : J.IsSquare) :
    Option (Mat α J.unknown.length J.unknown.length) :=
  J.inverseBy? .direct square

/-- Constant error components, if there are any. -/
def someConstants? (constants : Option (Point α)) : Option (Point α) :=
  constants.filter fun c => !c.isEmpty

/-- The weighed errors of the known variables. -/
def knownWeights (J : Jacobian α) (how : Combination) (errors : Point α)
    (constants : Option (Point α)) : Vector α J.known.length :=
  let given := how.column errors J.known
  match someConstants? constants with
  | some c => Mat.addVec given (how.column c J.known)
  | none => given

/-- The weighed errors of the unknown variables, given the inverse of their columns. -/
def unknownWeights (J : Jacobian α) (square : J.IsSquare)
    (inverse : Mat α J.unknown.length J.unknown.length) (how : Combination) (errors : Point α)
    (constants : Option (Point α)) : Vector α J.unknown.length :=
  let known := (J.knownBlock.map Scalar.abs).mulVec (J.knownWeights how errors constants)
  let sources :=
    match someConstants? constants with
    | some c =>
      let own := (J.unknownBlock.map Scalar.abs).mulVec (how.column c J.unknown)
      Mat.addVec known own
    | none => known
  (inverse.map Scalar.abs).mulVec (sources.cast square)

/-- The rows of some variables with their errors; every variable must have a value. -/
def rowsOf (values : Point α) (isCalculated : Bool) (errors : List (String × α)) :
    Except (Error α) (List (Row α)) :=
  errors.mapM fun (x, error) =>
    match values[x]? with
    | some value => .ok (Row.single x value error isCalculated)
    | none => .error (.evaluation ⟨.label x, .noValue⟩)

/-- The table of all variables with the errors that an inverse, found in a given way, propagates. -/
def propagateBy (J : Jacobian α) (invert : Mat.Inversion α) (how : Combination)
    (values errors : Point α) (constants : Option (Point α)) : Except (Error α) (Table α) :=
  if square : J.IsSquare then
    match J.inverseBy? invert square with
    | none => .error (.singular J.unknown)
    | some inverse => do
      let unknown := (J.unknownWeights square inverse how errors constants).map how.unweigh
      let known := (J.knownWeights how errors constants).map how.unweigh
      let calculated ← rowsOf values true (J.unknown.zip unknown.toList)
      let given ← rowsOf values false (J.known.zip known.toList)
      return Table.ofRows (calculated ++ given)
  else .error (.singular J.unknown)

/-- The table of all variables with the propagated errors. -/
def propagate (J : Jacobian α) (how : Combination) (values errors : Point α)
    (constants : Option (Point α)) : Except (Error α) (Table α) :=
  J.propagateBy .direct how values errors constants

end Jacobian

end ErrorBudget
