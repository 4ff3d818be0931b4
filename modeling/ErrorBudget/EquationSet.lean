import ErrorBudget.Definition
import ErrorBudget.Equation

/-!
# Sets of equations

An ordered list of equations, together with named combinations of some of them, replacements for
variables of equations still to be added, and the limits for their texts. A set is built by edits;
an edit that fails leaves the set as it was. A definition is loaded as a whole or not at all: its
names apply to all its equations wherever they stand, and its combinations count its own equations.
-/

set_option autoImplicit false

namespace ErrorBudget

/-- Equations with combinations, replacements and limits. -/
structure EquationSet (α : Type) where
  /-- The equations, in the order in which they were added. -/
  equations : Array (Equation α) := #[]
  /-- Named combinations, as indices into the equations. -/
  combos : NameMap (List Nat) := ∅
  /-- Replacements applied to every equation added as a text. -/
  names : NameMap (Expr α) := ∅
  /-- Limits for the text of an equation. -/
  limits : Limits := {}

namespace EquationSet

variable {α : Type}

/-- The number of equations. -/
def size (s : EquationSet α) : Nat := s.equations.size

/-- The equation at an index. -/
def get? (s : EquationSet α) (i : Nat) : Option (Equation α) := s.equations[i]?

/-- The indices of a combination. -/
def combo (s : EquationSet α) (name : String) : Except (Error α) (List Nat) :=
  match s.combos[name]? with
  | some is => .ok is
  | none => .error (.unknownCombo name)

/-- The equations of a combination in its order, or all of them. -/
def select (s : EquationSet α) : Option String → Except (Error α) (List (Equation α))
  | none => .ok s.equations.toList
  | some name => (s.combo name).map fun is => is.filterMap s.get?

/-- The variables of some equations. -/
def varsOf (equations : List (Equation α)) : NameSet :=
  NameSet.ofNames (equations.flatMap Equation.vars)

/-- The variables of the equations of a combination, or of all equations. -/
def vars (s : EquationSet α) (combo : Option String) : Except (Error α) NameSet :=
  (s.select combo).map varsOf

/-- Appends an equation and returns its index. -/
def push (s : EquationSet α) (eq : Equation α) : Nat × EquationSet α :=
  (s.size, { s with equations := s.equations.push eq })

/-- A pushed equation makes the set one larger. -/
@[simp] theorem size_push (s : EquationSet α) (eq : Equation α) :
    (s.push eq).2.size = s.size + 1 := by
  simp [push, size]

/-- An equation is found under the index that is returned when it is appended. -/
theorem get?_push (s : EquationSet α) (eq : Equation α) :
    (s.push eq).2.get? (s.push eq).1 = some eq := by
  simp [push, get?, size]

/-- Sets the limits for the texts of equations still to be added. -/
def withLimits (s : EquationSet α) (limits : Limits) : EquationSet α :=
  { s with limits := limits }

/-- Appends an equation given by functions and returns its index. -/
def addNative (s : EquationSet α) (n : Native α) : Except (Error α) (Nat × EquationSet α) :=
  (Equation.ofNative n).map s.push

/-- Names a combination of equations, which must exist. -/
def addCombo (s : EquationSet α) (name : String) (is : List Nat) :
    Except (Error α) (EquationSet α) :=
  match is.find? fun i => s.size ≤ i with
  | some i => .error (.invalidCombo name i s.size)
  | none => .ok { s with combos := s.combos.insert name is }

variable [Scalar α]

/-- Whether the equations at two indices are the same: two expressions if they are equal as trees,
two equations given by functions if they are one and the same equation. Where there is no
equation, nothing is the same as nothing. -/
def same (s : EquationSet α) (i j : Nat) : Bool :=
  match s.get? i, s.get? j with
  | none, none => true
  | some (.symbolic _ u _), some (.symbolic _ v _) => u == v
  | some (.native _ _ _), some (.native _ _ _) => i == j
  | _, _ => false

/-- Replaces a variable by an expression in every equation added as a text from now on. -/
def withName (s : EquationSet α) (old replacement : String) :
    Except (Error α) (EquationSet α) :=
  match Expr.parse replacement with
  | .error e => .error (.parse e)
  | .ok e => .ok { s with names := s.names.insert old e }

/-- Appends the equation of a text and returns its index. The limits hold for the equation as it is
written, before variables are replaced. -/
def addEquation (s : EquationSet α) (text : String) : Except (Error α) (Nat × EquationSet α) :=
  match Expr.parseEquation s.limits text with
  | .error e => .error e
  | .ok e => .ok (s.push (Equation.ofExpr text (e.substitute s.names)))

/-- Appends the equations of some texts. -/
def addEquations (s : EquationSet α) : List String → Except (Error α) (EquationSet α)
  | [] => .ok s
  | text :: texts =>
    match s.addEquation text with
    | .error e => .error e
    | .ok (_, s) => s.addEquations texts

/-- Adds combinations whose indices are counted from the equation `offset`. An index is moved by a
sum in a machine word. -/
def addCombos (s : EquationSet α) (offset : Nat) :
    List (String × List Nat) → Except (Error α) (EquationSet α)
  | [] => .ok s
  | (name, is) :: combos =>
    match s.addCombo name (is.map (addIndex offset)) with
    | .error e => .error e
    | .ok s => s.addCombos offset combos

/-- Adds everything that a definition says. Where a name has a replacement already, that of the
definition takes its place. -/
def load (s : EquationSet α) (text : String) : Except (Error α) (EquationSet α) := do
  let d ← Definition.parse text
  let renamed := { s with names := s.names ∪ d.names }
  let extended ← renamed.addEquations d.equations
  extended.addCombos s.size d.combos.toList

/-- The set of a definition. -/
def ofDefinition (text : String) : Except (Error α) (EquationSet α) :=
  load {} text

end EquationSet

end ErrorBudget
