import ErrorBudget.Double
import ErrorBudget.Proofs.EquationSet.Invariant
import ErrorBudget.Proofs.Propagation
import ErrorBudget.Proofs.Solver.Steps
import ErrorBudget.Proofs.Table

/-!
# Complete results

Whenever a solver succeeds, its table accounts for every variable of the active equations and for
nothing else (`solve_accounts`), whether the inputs were checked or not.

Each part is guarded in a different place. The Jacobian refuses an equation with a variable that has
no column, determinacy gives as many unknown columns as equations, and propagation asks every column
for a value. That the variables of an equation are the free ones holds of solvers that are built and
edited (`Solver.Reachable`).
-/

set_option autoImplicit false

namespace ErrorBudget

namespace Equation

variable {α : Type}

/-- Whether a variable is free in an equation: it occurs in the expression of the residual, or it
has been declared together with a derivative. -/
def IsFree (x : String) : Equation α → Prop
  | symbolic _ residual _ => x ∈ residual.vars
  | native _ _ partials => x ∈ partials

/-- The variables of an equation with exactly its derivatives are its free variables. -/
theorem IsFaithful.mem_vars [Scalar α] {edits : List (Edit α)} {eq : Equation α}
    (h : eq.IsFaithful edits) (x : String) : x ∈ eq.vars ↔ eq.IsFree x := by
  cases eq with
  | symbolic label residual partials => exact Std.ExtTreeMap.mem_keys.trans (h.keys x)
  | native label residual partials => exact Std.ExtTreeMap.mem_keys

end Equation

namespace Partition

variable {α : Type} {values errors : Point α} {vars : NameSet}

/-- No variable has two columns. -/
theorem nodup_columns (values errors : Point α) (vars : NameSet) :
    (ofInputs values errors vars).columns.Nodup := by
  have hvars : vars.toList.Nodup :=
    Std.ExtTreeSet.distinct_toList.imp fun hne heq => hne (by simp [heq])
  refine List.nodup_append.mpr ⟨hvars.filter _, hvars.filter _, ?_⟩
  rintro x hunknown _ hknown rfl
  exact (mem_unknown.mp hunknown).2.2 (mem_known.mp hknown).2

/-- Only a variable has a column. -/
theorem mem_of_mem_columns {x : String} (h : x ∈ (ofInputs values errors vars).columns) :
    x ∈ vars := by
  rcases List.mem_append.mp h with hunknown | hknown
  · exact (mem_unknown.mp hunknown).1
  · exact (mem_known.mp hknown).1

end Partition

namespace Jacobian

variable {α : Type} [Scalar α] {values errors : Point α}

/-- The rows are named by their variables. -/
theorem names_rowsAt {isCalculated : Bool} {names : List String} (e : Vector α names.length) :
    (rowsAt values isCalculated names e).map Row.name = names := by
  simp [rowsAt, Row.single, Function.comp_def]

/-- What a row says of its variable. -/
theorem of_mem_rowsAt {isCalculated : Bool} {names : List String} {e : Vector α names.length}
    {row : Row α} (h : row ∈ rowsAt values isCalculated names e) :
    row.name ∈ names ∧ row.value = values.getD row.name 0 ∧ row.isCalculated = isCalculated ∧
      row.stage = none := by
  obtain ⟨i, rfl⟩ := List.mem_ofFn.mp h
  exact ⟨List.get_mem .., rfl, rfl, rfl⟩

/-- A Jacobian has a row for each equation, and columns for all variables. -/
theorem of_ofEquations {equations : List (Equation α)} {p : Partition} {J : Jacobian α}
    (h : ofEquations equations p values = .ok J) :
    J.equations = equations.length ∧ J.unknown = p.unknown ∧ J.known = p.known ∧
      ∀ eq ∈ equations, ∀ x ∈ eq.vars, x ∈ p.columns := by
  obtain ⟨hrows, rfl⟩ := ofEquations_eq_ok_iff.mp h
  exact ⟨equations_ofSlopes equations p values, rfl, rfl, fun eq heq => (hrows eq heq).columns⟩

/-- What the rows of a table are, whichever errors were propagated. -/
theorem of_propagate {J : Jacobian α} {how : Combination} {constants : Option (Point α)}
    {t : Table α} (h : J.propagate how values errors constants = .ok t) :
    (t.rows.map Row.name).Perm J.columns ∧ t.calculated.length = J.equations ∧
      (t.rows.Pairwise fun a b => a.le b) ∧
      ∀ row ∈ t.rows, values[row.name]? = some row.value ∧ row.stage = none ∧
        (row.isCalculated ∧ row.name ∈ J.unknown ∨ ¬row.isCalculated ∧ row.name ∈ J.known) := by
  obtain ⟨square, inverse, -, hvalues, rfl⟩ := propagate_eq_ok_iff.mp h
  refine ⟨?_, ?_, Table.ofRows_sorted _, fun row hrow => ?_⟩
  · refine ((Table.ofRows_perm _).map Row.name).trans (.of_eq ?_)
    rw [List.map_append, names_rowsAt, names_rowsAt, columns]
  · have hsquare : J.unknown.length = J.equations := square.symm
    rw [← hsquare, (calculated_ofRows _ _).length_eq, rowsAt, List.length_ofFn]
  · have hvalue (hmem : row.name ∈ J.columns) (hrowvalue : row.value = values.getD row.name 0) :
        values[row.name]? = some row.value := by
      rw [hrowvalue, Std.ExtTreeMap.getD_eq_getD_getElem?,
        Std.ExtTreeMap.getElem?_eq_some_getElem (hvalues _ hmem), Option.getD_some]
    rcases List.mem_append.mp ((Table.ofRows_perm _).mem_iff.mp hrow) with hmem | hmem
    · obtain ⟨hname, hrowvalue, hcalculated, hstage⟩ := of_mem_rowsAt hmem
      exact ⟨hvalue (List.mem_append_left _ hname) hrowvalue, hstage, .inl ⟨hcalculated, hname⟩⟩
    · obtain ⟨hname, hrowvalue, hcalculated, hstage⟩ := of_mem_rowsAt hmem
      exact ⟨hvalue (List.mem_append_right _ hname) hrowvalue, hstage,
        .inr ⟨by simp [hcalculated], hname⟩⟩

end Jacobian

/-- A table that accounts for the variables of some equations at given values: it has a row for each
of them, and the errors of as many variables as there are equations have been calculated. -/
structure Table.Accounts {α : Type} (t : Table α) (equations : List (Equation α))
    (values errors : Point α) : Prop where
  increasing : t.rows.Pairwise fun a b => a.name < b.name
  names : ∀ x, (∃ row ∈ t.rows, row.name = x) ↔ ∃ eq ∈ equations, eq.IsFree x
  values : ∀ row ∈ t.rows, values[row.name]? = some row.value
  /-- The error of a variable is calculated exactly if none is given. -/
  isCalculated : ∀ row ∈ t.rows, row.isCalculated ↔ row.name ∉ errors
  calculated : t.calculated.length = equations.length
  stages : ∀ row ∈ t.rows, row.stage = none

namespace Solver

variable {α : Type} [Scalar α] {s : Solver α} {values errors : Point α} {options : SolveOptions α}
  {t : Table α}

/-- The solvers that can be had: made from texts or from a definition, or around a set that was
built by edits, and then edited further. Edits may fail. -/
inductive Reachable : Solver α → Prop
  | ofTexts {texts config s} (h : ofTexts texts config = .ok s) : Reachable s
  | ofDefinition {text config s} (h : ofDefinition text config = .ok s) : Reachable s
  | ofEquations {edits config} : Reachable ⟨EquationSet.run {} edits, config⟩
  | edited {s edit} (h : Reachable s) : Reachable { s with equations := s.equations.after edit }

/-- To add some texts is to carry out the edit of each of them. -/
theorem run_of_addEquations {e e' : EquationSet α} {texts : List String}
    (h : e.addEquations texts = .ok e') : e.run (texts.map Edit.equation) = e' := by
  induction texts generalizing e with
  | nil => exact Except.ok.inj h
  | cons text texts ih =>
    unfold EquationSet.addEquations at h
    split at h
    · contradiction
    · rename_i i next hadd
      have happly : e.apply (.equation text) = .ok (.stored i, next) := by
        rw [EquationSet.apply_equation, hadd]
        rfl
      have hafter := EquationSet.after_eq_of_apply_eq_ok happly
      rw [List.map_cons, EquationSet.run, List.foldl_cons, hafter]
      exact ih h

/-- The equations of a solver have been built by edits. -/
theorem Reachable.exists_run (h : s.Reachable) :
    ∃ edits, s.equations = EquationSet.run {} edits := by
  induction h with
  | @ofTexts texts config s h =>
    simp only [Solver.ofTexts, bind_eq_ok_iff] at h
    obtain ⟨config', -, e, he, hs⟩ := h
    obtain rfl := Except.ok.inj hs
    exact ⟨.limits config'.limits :: texts.map .equation, (run_of_addEquations he).symm⟩
  | @ofDefinition text config s h =>
    simp only [Solver.ofDefinition, bind_eq_ok_iff] at h
    obtain ⟨config', -, e, he, hs⟩ := h
    obtain rfl := Except.ok.inj hs
    refine ⟨[.limits config'.limits, .load text], ?_⟩
    have happly : EquationSet.apply (EquationSet.withLimits {} config'.limits) (.load text) =
        .ok (.done, e) := by
      rw [EquationSet.apply_load, he]
      rfl
    exact (EquationSet.after_eq_of_apply_eq_ok happly).symm
  | @ofEquations edits config => exact ⟨edits, rfl⟩
  | @edited s edit hs ih =>
    obtain ⟨edits, hedits⟩ := ih
    refine ⟨edits ++ [edit], ?_⟩
    rw [EquationSet.run_append, ← hedits]
    rfl

/-- The active equations have exactly their derivatives. -/
theorem Reachable.exists_isFaithful (hs : s.Reachable) {combo : Option String}
    {equations : List (Equation α)} (h : s.equations.select combo = .ok equations)
    {eq : Equation α} (heq : eq ∈ equations) : ∃ edits, eq.IsFaithful edits := by
  obtain ⟨edits, hedits⟩ := hs.exists_run
  obtain ⟨i, hi⟩ : ∃ i, s.equations.get? i = some eq := by
    cases combo with
    | none =>
      obtain rfl := Except.ok.inj h
      obtain ⟨i, hi, rfl⟩ := List.mem_iff_getElem.mp heq
      exact ⟨i, by simp [EquationSet.get?]⟩
    | some name =>
      obtain ⟨is, -, rfl⟩ := map_eq_ok_iff.mp h
      obtain ⟨i, -, hi⟩ := List.mem_filterMap.mp heq
      exact ⟨i, hi⟩
  rw [hedits] at hi
  exact ⟨edits, (EquationSet.consistent_run edits).faithful i eq hi⟩

/-- The variables of an active equation are its free variables. -/
theorem Reachable.mem_vars (hs : s.Reachable) {combo : Option String}
    {equations : List (Equation α)} (h : s.equations.select combo = .ok equations)
    {eq : Equation α} (heq : eq ∈ equations) (x : String) : x ∈ eq.vars ↔ eq.IsFree x := by
  obtain ⟨edits, hfaithful⟩ := hs.exists_isFaithful h heq
  exact hfaithful.mem_vars x

/-- Success of a solver is success of the propagation. -/
theorem exists_propagate_of_solve (h : s.solve values errors options = .ok t) :
    ∃ equations J, s.equations.select options.combo = .ok equations ∧
      Jacobian.ofEquations equations
        (Partition.ofInputs values errors (EquationSet.varsOf equations)) values = .ok J ∧
      J.propagate options.combination values errors options.constants = .ok t := by
  rw [solve_eq] at h
  obtain ⟨equations, hselect, h⟩ := bind_eq_ok_iff.mp h
  -- The rest is the same with and without a check of the inputs.
  rw [solveEquations_eq] at h
  obtain ⟨-, -, h⟩ := bind_eq_ok_iff.mp h
  obtain ⟨-, -, h⟩ := bind_eq_ok_iff.mp h
  obtain ⟨J, hJ, hpropagate⟩ := bind_eq_ok_iff.mp h
  exact ⟨equations, J, hselect, mapError_eq_ok_iff.mp hJ, hpropagate⟩

/-- If a solver succeeds, its table accounts for the variables of the active equations. -/
theorem solve_accounts (hs : s.Reachable) (h : s.solve values errors options = .ok t) :
    ∃ equations, s.equations.select options.combo = .ok equations ∧
      t.Accounts equations values errors := by
  obtain ⟨equations, J, hselect, hJ, hpropagate⟩ := exists_propagate_of_solve h
  obtain ⟨hequations, hunknown, hknown, hcolumns⟩ := Jacobian.of_ofEquations hJ
  obtain ⟨hnames, hcalculated, hsorted, hrows⟩ := Jacobian.of_propagate hpropagate
  have hJcolumns : J.columns =
      (Partition.ofInputs values errors (EquationSet.varsOf equations)).columns := by
    rw [Jacobian.columns, hunknown, hknown, Partition.columns]
  have hvars (x : String) : x ∈ J.columns ↔ ∃ eq ∈ equations, eq.IsFree x := by
    constructor
    · intro hx
      have hmem : x ∈ EquationSet.varsOf equations := Partition.mem_of_mem_columns (hJcolumns ▸ hx)
      obtain ⟨eq, heq, hxeq⟩ := EquationSet.mem_varsOf.mp hmem
      exact ⟨eq, heq, (hs.mem_vars hselect heq x).mp hxeq⟩
    · rintro ⟨eq, heq, hx⟩
      exact hJcolumns ▸ hcolumns eq heq x ((hs.mem_vars hselect heq x).mpr hx)
  refine ⟨equations, hselect, ?_, fun x => ?_, fun row hrow => (hrows row hrow).1,
    fun row hrow => ?_, hcalculated.trans hequations, fun row hrow => (hrows row hrow).2.1⟩
  · have hnodup := hJcolumns ▸ Partition.nodup_columns values errors (EquationSet.varsOf equations)
    exact Table.names_increasing hsorted (fun row hrow => (hrows row hrow).2.1)
      (hnames.nodup_iff.mpr hnodup)
  · rw [← hvars x, ← hnames.mem_iff, List.mem_map]
  · rcases (hrows row hrow).2.2 with ⟨htrue, hmem⟩ | ⟨hfalse, hmem⟩
    · have hnot := (Partition.mem_unknown.mp (hunknown ▸ hmem)).2.2
      exact iff_of_true htrue hnot
    · have hgiven := (Partition.mem_known.mp (hknown ▸ hmem)).2
      exact iff_of_false hfalse (not_not_intro hgiven)

/-- A chain of two equations, with an error for the first variable only. -/
theorem solve_accounts_chain :
    ∃ (s : Solver Float) (t : Table Float),
      ofTexts ["y = 3*x", "z = x*y"] Config.standard = .ok s ∧ s.Reachable ∧
      s.solve (NameMap.ofEntries [("x", 2), ("y", 6), ("z", 12)])
        (NameMap.ofEntries [("x", 0.1)]) {} = .ok t ∧
      ∃ equations, s.equations.select none = .ok equations ∧
        t.Accounts equations (NameMap.ofEntries [("x", 2), ("y", 6), ("z", 12)])
          (NameMap.ofEntries [("x", 0.1)]) := by
  have hok : (ofTexts ["y = 3*x", "z = x*y"] Config.standard >>= fun s : Solver Float =>
      s.solve (NameMap.ofEntries [("x", 2), ("y", 6), ("z", 12)])
        (NameMap.ofEntries [("x", 0.1)]) {}).isOk = true := by decide +kernel
  obtain ⟨t, hchain⟩ := exists_eq_ok_of_isOk hok
  obtain ⟨s, hs, ht⟩ := bind_eq_ok_iff.mp hchain
  exact ⟨s, t, hs, .ofTexts hs, ht, solve_accounts (.ofTexts hs) ht⟩

end Solver

end ErrorBudget
