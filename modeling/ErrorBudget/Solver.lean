import ErrorBudget.Config
import ErrorBudget.Propagation
import ErrorBudget.Validation

/-!
# Solvers

A solver holds a set of equations and a configuration. Given values and some errors, `Solver.solve`
finds the errors of the other variables: it checks the inputs if asked to, requires a determinate
system, evaluates the Jacobian at the values and propagates the known errors. All questions can be
restricted to a combination of the equations.
-/

set_option autoImplicit false

namespace ErrorBudget

/-- Equations with a configuration. -/
structure Solver (α : Type) where
  /-- The equations. -/
  equations : EquationSet α
  /-- The configuration. -/
  config : Config α

/-- How a system is to be solved. -/
structure SolveOptions (α : Type) where
  /-- Constant error components, which add to the errors. -/
  constants : Option (Point α) := none
  /-- The combination of equations that is solved; all equations if there is none. -/
  combo : Option String := none
  /-- Whether the inputs are checked. -/
  check : Bool := true
  /-- How errors combine. -/
  combination : Combination := .linear

namespace Solver

variable {α : Type} [Scalar α]

/-- The solver of some equations, read within the limits of a valid configuration. -/
def ofTexts (texts : List String) (config : Config α) : Except (Error α) (Solver α) := do
  let config ← config.validate
  let equations ← (EquationSet.withLimits {} config.limits).addEquations texts
  return ⟨equations, config⟩

/-- The solver of a definition, read within the limits of a valid configuration. -/
def ofDefinition (text : String) (config : Config α) : Except (Error α) (Solver α) := do
  let config ← config.validate
  let equations ← (EquationSet.withLimits {} config.limits).load text
  return ⟨equations, config⟩

/-- The variables of the active equations. -/
def vars (s : Solver α) (combo : Option String) : Except (Error α) NameSet :=
  s.equations.vars combo

/-- The variables of the active equations, divided by what is given for them. -/
def partition (s : Solver α) (values errors : Point α) (combo : Option String) :
    Except (Error α) Partition :=
  (s.vars combo).map (Partition.ofInputs values errors)

/-- Names for which something is given although no active equation uses them. -/
def unused (s : Solver α) (values errors : Point α) (combo : Option String) :
    Except (Error α) NameSet :=
  (s.vars combo).map (unusedVariables values errors)

/-- Variables of the active equations for which nothing is given. -/
def missing (s : Solver α) (values errors : Point α) (combo : Option String) :
    Except (Error α) NameSet :=
  (s.vars combo).map (missingVariables values errors)

/-- Checks the inputs and ends with the first failure. -/
def check (s : Solver α) (values errors : Point α) (combo : Option String) :
    Except (Error α) Unit := do
  let equations ← s.equations.select combo
  Validation.check s.config.tolerance equations values errors

/-- Carries out all checks and reports all failures. -/
def diagnose [Numeral α] (s : Solver α) (values errors : Point α) (combo : Option String) :
    Except (Error α) Report := do
  let equations ← s.equations.select combo
  return Validation.diagnose s.config.tolerance equations values errors

/-- The Jacobian of the active equations at the values. -/
def jacobian (s : Solver α) (values errors : Point α) (combo : Option String) :
    Except (Error α) (Jacobian α) := do
  let equations ← s.equations.select combo
  let partition ← s.partition values errors combo
  (Jacobian.ofEquations equations partition values).mapError .evaluation

/-- Propagates the given errors onto the variables without an error, with inverses that are found in
a given way. -/
def solveBy (s : Solver α) (invert : Mat.Inversion α) (values errors : Point α)
    (options : SolveOptions α) : Except (Error α) (Table α) := do
  let equations ← s.equations.select options.combo
  if options.check then Validation.check s.config.tolerance equations values errors
  let partition ← s.partition values errors options.combo
  partition.checkDeterminacy equations.length
  let jacobian ← (Jacobian.ofEquations equations partition values).mapError .evaluation
  jacobian.propagateBy invert options.combination values errors options.constants

/-- Propagates the given errors onto the variables without an error. -/
def solve (s : Solver α) (values errors : Point α) (options : SolveOptions α) :
    Except (Error α) (Table α) :=
  s.solveBy .direct values errors options

/-- Solves the same system at many points; a failure at one does not touch the others. -/
def solveBatch (s : Solver α) (points : List (Point α)) (errors : Point α)
    (options : SolveOptions α) : List (Except (Error α) (Table α)) :=
  points.map fun values => s.solve values errors options

end Solver

end ErrorBudget
