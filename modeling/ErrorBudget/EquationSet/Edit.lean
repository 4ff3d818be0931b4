import ErrorBudget.EquationSet

/-!
# Edits

The changes of a set of equations as values, so that a run of changes is a list. An edit works on
the set in place (`EquationSet.Update`): it reports a result or a failure, and either way it leaves
a set. What was written before a failure stays written, so a definition is loaded into a copy, which
takes the place of the set when nothing has failed.
-/

set_option autoImplicit false

namespace ErrorBudget

/-- A change of a set of equations. -/
inductive Edit (α : Type) where
  /-- Adds the equation of a text. -/
  | equation (text : String)
  /-- Adds an equation given by functions. -/
  | native (n : Native α)
  /-- Names a combination. -/
  | combo (name : String) (indices : List Nat)
  /-- Loads a definition. -/
  | load (text : String)
  /-- Replaces a variable in the equations still to be added. -/
  | name (old replacement : String)
  /-- Sets the limits for the texts still to be added. -/
  | limits (limits : Limits)

/-- What an edit reports when it succeeds. -/
inductive EditResult where
  /-- The equation is stored at this index. -/
  | stored (index : Nat)
  /-- There is nothing to report. -/
  | done
  deriving DecidableEq, Repr

namespace EquationSet

variable {α β : Type}

/-- An operation in place: what it reports, and the set that it leaves, also where it fails. -/
abbrev Update (α β : Type) : Type := EquationSet α → Except (Error α) β × EquationSet α

namespace Update

/-- Appends an equation given by functions. -/
def native (n : Native α) : Update α Nat := fun s =>
  match Equation.ofNative n with
  | .error e => (.error e, s)
  | .ok eq => (.ok s.size, (s.push eq).2)

/-- Names a combination of equations, which must exist. -/
def combo (name : String) (is : List Nat) : Update α Unit := fun s =>
  match is.find? fun i => s.size ≤ i with
  | some i => (.error (.invalidCombo name i s.size), s)
  | none => (.ok (), { s with combos := s.combos.insert name is })

/-- Names the combinations of a list in turn, up to the first that fails. -/
def combos (offset : Nat) : List (String × List Nat) → Update α Unit
  | [] => fun s => (.ok (), s)
  | (name, is) :: rest => fun s =>
    match combo name (is.map (addIndex offset)) s with
    | (.error e, s) => (.error e, s)
    | (.ok (), s) => combos offset rest s

variable [Scalar α]

/-- Appends the equation of a text. -/
def equation (text : String) : Update α Nat := fun s =>
  match Expr.parseEquation s.limits text with
  | .error e => (.error e, s)
  | .ok e => (.ok s.size, (s.push (Equation.ofExpr text (e.substitute s.names))).2)

/-- Appends the equations of some texts in turn, up to the first that fails. -/
def equations : List String → Update α Unit
  | [] => fun s => (.ok (), s)
  | text :: texts => fun s =>
    match equation text s with
    | (.error e, s) => (.error e, s)
    | (.ok _, s) => equations texts s

/-- Adds what a definition says, its names first. -/
def definition (d : Definition α) : Update α Unit := fun s =>
  match equations d.equations { s with names := s.names ∪ d.names } with
  | (.error e, staged) => (.error e, staged)
  | (.ok (), staged) => combos s.size d.combos.toList staged

/-- Loads the definition of a text. It is added to a copy, which is dropped if that fails. -/
def load (text : String) : Update α Unit := fun s =>
  match Definition.parse text with
  | .error e => (.error e, s)
  | .ok d =>
    match definition d s with
    | (.error e, _) => (.error e, s)
    | (.ok (), staged) => (.ok (), staged)

/-- Replaces a variable in every equation added as a text from now on. -/
def name (old replacement : String) : Update α Unit := fun s =>
  match Expr.parse replacement with
  | .error e => (.error (.parse e), s)
  | .ok e => (.ok (), { s with names := s.names.insert old e })

end Update

/-- What is reported in another form. -/
def Update.report {γ : Type} (f : β → γ) (u : Update α β) : Update α γ := fun s =>
  (u s).map (Except.map f) id

/-- A result with the set that is left, or a failure without it. -/
def settled : Except (Error α) β × EquationSet α → Except (Error α) (β × EquationSet α)
  | (.ok b, s) => .ok (b, s)
  | (.error e, _) => .error e

variable [Scalar α]

/-- Carries out an edit in place. -/
def exec (s : EquationSet α) : Edit α → Except (Error α) EditResult × EquationSet α
  | .equation text => (Update.equation text).report .stored s
  | .native n => (Update.native n).report .stored s
  | .combo name is => (Update.combo name is).report (fun _ => .done) s
  | .load text => (Update.load text).report (fun _ => .done) s
  | .name old replacement => (Update.name old replacement).report (fun _ => .done) s
  | .limits limits => (.ok .done, s.withLimits limits)

/-- Carries out an edit, for its result and the set that it leaves when it succeeds. -/
def apply (s : EquationSet α) (edit : Edit α) : Except (Error α) (EditResult × EquationSet α) :=
  settled (s.exec edit)

/-- The set that an edit leaves, whether it succeeds or not. -/
def after (s : EquationSet α) (edit : Edit α) : EquationSet α :=
  (s.exec edit).2

/-- The set after a run of edits. -/
def run (s : EquationSet α) (edits : List (Edit α)) : EquationSet α :=
  edits.foldl after s

end EquationSet

end ErrorBudget
