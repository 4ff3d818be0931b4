import ErrorBudget.Solver

/-!
# Pipelines

Solvers in a row, where errors found by one stage become known errors of the next. A link takes the
error of a variable from the result of the stage before and gives it to a variable of its own stage,
whatever error was given for that. The result holds the rows of all stages, each row with the number
of its stage.
-/

set_option autoImplicit false

namespace ErrorBudget

/-- Takes an error from the stage before. -/
structure Link where
  /-- The variable in the result of the stage before. -/
  source : String
  /-- The variable of this stage that gets its error. -/
  target : String
  deriving DecidableEq, Repr

/-- A solver with the links into it, possibly restricted to a combination of its equations. -/
structure Stage (α : Type) where
  /-- The solver. -/
  solver : Solver α
  /-- The links into the stage, in the order in which they are followed. -/
  links : List Link := []
  /-- The combination that is solved; all equations if there is none. -/
  combo : Option String := none

/-- Stages in the order in which they are solved. -/
structure Pipeline (α : Type) where
  /-- The stages. -/
  stages : List (Stage α) := []

/-- What all stages of a run share. -/
structure RunOptions where
  /-- Whether the inputs of every stage are checked. -/
  check : Bool := true
  /-- How errors combine. -/
  combination : Combination := .linear

/-- A stage together with its inputs. -/
structure StageRun (α : Type) where
  /-- The stage. -/
  stage : Stage α
  /-- The values of its variables. -/
  values : Point α
  /-- The errors given for its variables. -/
  errors : Point α
  /-- Its constant error components. -/
  constants : Option (Point α)

namespace Stage

variable {α : Type} [Scalar α]

/-- Follows links into a stage with these variables, and returns the errors with the targets
overwritten. -/
def follow (number : Nat) (previous : Table α) (vars : NameSet) :
    List Link → Point α → Except (Error α) (Point α)
  | [], errors => .ok errors
  | link :: links, errors =>
    match previous.get? link.source with
    | none => .error (.invalidLink number link.source link.target (.unknownSource (number - 1)))
    | some row =>
      if link.target ∈ vars then
        follow number previous vars links (errors.insert link.target row.error)
      else .error (.invalidLink number link.source link.target .unknownTarget)

/-- The errors of a stage after all its links have been followed. -/
def linkedErrors (s : Stage α) (number : Nat) (previous : Option (Table α)) (errors : Point α) :
    Except (Error α) (Point α) :=
  match s.links, previous with
  | [], _ => .ok errors
  | link :: _, none => .error (.invalidLink number link.source link.target .noPrevious)
  | links, some previous => do
    let vars ← (s.solver.vars s.combo).mapError (.stage number)
    follow number previous vars links errors

end Stage

namespace StageRun

variable {α : Type} [Scalar α]

/-- Solves a stage, given its number and the result of the stage before. -/
def solve (options : RunOptions) (number : Nat) (previous : Option (Table α)) (r : StageRun α) :
    Except (Error α) (Table α) := do
  let errors ← r.stage.linkedErrors number previous r.errors
  let table ← (r.stage.solver.solve r.values errors
    { constants := r.constants
      combo := r.stage.combo
      check := options.check
      combination := options.combination }).mapError (.stage number)
  return table.withStage number

/-- Solves stages in a row, the first of which has the number `number`. -/
def solveAll (options : RunOptions) (number : Nat) (previous : Option (Table α)) :
    List (StageRun α) → Except (Error α) (List (Table α))
  | [] => .ok []
  | r :: rs => do
    let table ← r.solve options number previous
    let tables ← solveAll options (number + 1) (some table) rs
    return table :: tables

end StageRun

namespace Pipeline

variable {α : Type}

/-- The number of stages. -/
def size (p : Pipeline α) : Nat := p.stages.length

/-- Appends a stage. -/
def add (p : Pipeline α) (solver : Solver α) (links : List Link) : Pipeline α :=
  ⟨p.stages ++ [⟨solver, links, none⟩]⟩

/-- Restricts the last stage to a combination of its equations. -/
def withCombo (p : Pipeline α) (combo : String) : Pipeline α :=
  match p.stages.getLast? with
  | some last => ⟨p.stages.dropLast ++ [{ last with combo := some combo }]⟩
  | none => p

/-- Requires one input per stage. -/
def checkShape (p : Pipeline α) (what : StageInput) (found : Nat) : Except (Error α) Unit :=
  if found = p.size then .ok () else .error (.shape what p.size found)

/-- The stages with their inputs, each of which is given once per stage. -/
def runs (p : Pipeline α) (values errors : List (Point α)) (constants : Option (List (Point α))) :
    List (StageRun α) :=
  let constants := match constants with
    | some maps => maps.map some
    | none => p.stages.map fun _ => none
  (p.stages.zip (values.zip (errors.zip constants))).map
    fun (stage, values, errors, constants) => ⟨stage, values, errors, constants⟩

variable [Scalar α]

/-- Solves all stages in their order. -/
def solve (p : Pipeline α) (values errors : List (Point α)) (constants : Option (List (Point α)))
    (options : RunOptions) : Except (Error α) (Table α) := do
  p.checkShape .values values.length
  p.checkShape .errors errors.length
  match constants with
  | some maps => p.checkShape .constants maps.length
  | none => .ok ()
  let tables ← StageRun.solveAll options 1 none (p.runs values errors constants)
  return Table.concat tables

end Pipeline

end ErrorBudget
