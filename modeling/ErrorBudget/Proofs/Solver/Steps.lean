import ErrorBudget.Proofs.Jacobian
import ErrorBudget.Solver

/-!
# Steps of a solve

A solver first selects the active equations; what follows depends on these equations alone
(`Solver.check_eq`, `Solver.jacobian_eq`, `Solver.solve_eq`). A check of the inputs passes exactly
when no name is restricted, every equation is satisfied and the system is determinate
(`Validation.check_eq_ok_iff`).
-/

set_option autoImplicit false

namespace ErrorBudget

namespace EquationSet

/-- The variables of some equations are those of each of them. -/
theorem mem_varsOf {α : Type} {equations : List (Equation α)} {x : String} :
    x ∈ varsOf equations ↔ ∃ eq ∈ equations, x ∈ eq.vars := by
  simp [varsOf]

/-- Equations with the same variables, one by one, have the same variables altogether. -/
theorem varsOf_congr {α : Type} {equations equations' : List (Equation α)}
    (h : List.Forall₂ (fun eq eq' => eq'.vars = eq.vars) equations equations') :
    varsOf equations' = varsOf equations := by
  have hvars : equations'.flatMap Equation.vars = equations.flatMap Equation.vars := by
    induction h with
    | nil => rfl
    | cons hfirst _ ih => rw [List.flatMap_cons, List.flatMap_cons, hfirst, ih]
  rw [varsOf, hvars, ← varsOf]

end EquationSet

namespace Partition

variable {α : Type} {p : Partition} {n : Nat}

/-- A system is determinate exactly if it has as many unknown variables as equations. -/
theorem checkDeterminacy_eq_ok_iff :
    (p.checkDeterminacy n : Except (Error α) Unit) = .ok () ↔ p.unknown.length = n := by
  unfold checkDeterminacy
  split
  · rename_i h
    simp [h]
  · rename_i h
    simp [h]

/-- The partition of the variables of some equations. -/
def ofEquations (equations : List (Equation α)) (values errors : Point α) : Partition :=
  ofInputs values errors (EquationSet.varsOf equations)

/-- A variable of the equations that has a value has a column. -/
theorem mem_columns_of_mem_values {equations : List (Equation α)} {values errors : Point α}
    {eq : Equation α} {x : String} (heq : eq ∈ equations) (hx : x ∈ eq.vars) (hvalue : x ∈ values) :
    x ∈ (ofEquations equations values errors).columns := by
  have hvar : x ∈ EquationSet.varsOf equations :=
    EquationSet.mem_varsOf.mpr ⟨eq, heq, hx⟩
  by_cases herror : x ∈ errors
  · exact List.mem_append_right _ (mem_known.mpr ⟨hvar, herror⟩)
  · exact List.mem_append_left _ (mem_unknown.mpr ⟨hvar, hvalue, herror⟩)

end Partition

namespace Equation

variable {α : Type} [Scalar α]

/-- Whether the values satisfy an equation within a tolerance. -/
def IsSatisfied (eq : Equation α) (tolerance : α) (values : Point α) : Prop :=
  ∃ residual, eq.evaluate values = .ok residual ∧ Scalar.abs residual ≤ tolerance

/-- An equation with a value has all its variables resolved. -/
theorem resolved_of_evaluate {eq : Equation α} {p : Point α} {y : α} (h : eq.evaluate p = .ok y) :
    ∀ x ∈ eq.vars, x ∈ p := by
  obtain ⟨u, hresolved, -⟩ := bind_eq_ok_iff.mp h
  exact requireResolved_eq_ok_iff.mp hresolved

end Equation

namespace Validation

variable {α : Type}

/-- Without failures there is no first one. -/
theorem firstOf_eq_ok_iff {failures : List (Error α)} :
    firstOf failures = .ok () ↔ failures = [] := by
  cases failures <;> simp [firstOf]

variable [Scalar α] {tolerance : α} {values errors : Point α} {equations : List (Equation α)}

/-- A residual passes exactly if the equation is satisfied. -/
theorem residualFailure?_eq_none_iff {index : Nat} {eq : Equation α} :
    residualFailure? tolerance values index eq = none ↔ eq.IsSatisfied tolerance values := by
  unfold residualFailure? Equation.IsSatisfied
  split
  · split
    · rename_i e he
      simp [he]
    · rename_i residual hresidual
      simp [hresidual]
  · rename_i names hnames
    simp only [reduceCtorEq, false_iff, not_exists, not_and]
    intro residual hresidual
    have hresolved := Equation.resolved_of_evaluate hresidual
    exact absurd (Equation.unresolved_eq_nil_iff.mpr hresolved) hnames

/-- All residuals pass exactly if all equations are satisfied. -/
theorem residualFailuresFrom_eq_nil_iff {index : Nat} :
    residualFailuresFrom tolerance values index equations = [] ↔
      ∀ eq ∈ equations, eq.IsSatisfied tolerance values := by
  induction equations generalizing index with
  | nil => simp [residualFailuresFrom]
  | cons eq eqs ih =>
    rw [residualFailuresFrom, List.append_eq_nil_iff, ih, List.forall_mem_cons,
      Option.toList_eq_nil_iff, residualFailure?_eq_none_iff]

/-- A check passes exactly when all its parts do. -/
theorem check_eq_ok_iff :
    check tolerance equations values errors = .ok () ↔
      checkRestricted values errors = .ok () ∧
        (∀ eq ∈ equations, eq.IsSatisfied tolerance values) ∧
        (Partition.ofEquations equations values errors).unknown.length = equations.length := by
  unfold check
  simp only [bind_eq_ok_iff, Unique.exists_iff, PUnit.default_eq_unit, residualFailures]
  rw [firstOf_eq_ok_iff, residualFailuresFrom_eq_nil_iff]
  exact and_congr_right fun _ => and_congr_right fun _ => Partition.checkDeterminacy_eq_ok_iff

/-- After a passed check all variables have values. -/
theorem resolved_of_check (h : check tolerance equations values errors = .ok ()) :
    ∀ eq ∈ equations, ∀ x ∈ eq.vars, x ∈ values := by
  intro eq heq
  obtain ⟨residual, hresidual, -⟩ := (check_eq_ok_iff.mp h).2.1 eq heq
  exact Equation.resolved_of_evaluate hresidual

end Validation

namespace Solver

variable {α : Type} [Scalar α] {s : Solver α} {values errors : Point α}

/-- What a solver does with the active equations. -/
def solveEquations (tolerance : α) (equations : List (Equation α)) (values errors : Point α)
    (options : SolveOptions α) : Except (Error α) (Table α) := do
  if options.check then Validation.check tolerance equations values errors
  (Partition.ofEquations equations values errors).checkDeterminacy equations.length
  let jacobian ← (Jacobian.ofEquations equations (Partition.ofEquations equations values errors)
    values).mapError .evaluation
  jacobian.propagate options.combination values errors options.constants

/-- What a solver does with the active equations once their inputs have been checked. -/
def solveUnchecked (equations : List (Equation α)) (values errors : Point α)
    (options : SolveOptions α) : Except (Error α) (Table α) := do
  (Partition.ofEquations equations values errors).checkDeterminacy equations.length
  let jacobian ← (Jacobian.ofEquations equations (Partition.ofEquations equations values errors)
    values).mapError .evaluation
  jacobian.propagate options.combination values errors options.constants

/-- A solve is a check, if one is asked for, and what follows it. -/
theorem solveEquations_eq {tolerance : α} {equations : List (Equation α)}
    {options : SolveOptions α} :
    solveEquations tolerance equations values errors options =
      (if options.check then Validation.check tolerance equations values errors else .ok ()) >>=
        fun _ => solveUnchecked equations values errors options := by
  unfold solveEquations solveUnchecked
  cases options.check <;> rfl

/-- After a passed check both guards in front of the Jacobian let the inputs pass. -/
theorem solveEquations_eq_of_check {tolerance : α} {equations : List (Equation α)}
    {options : SolveOptions α} (h : Validation.check tolerance equations values errors = .ok ()) :
    solveEquations tolerance equations values errors options =
      (Jacobian.ofEquations equations (Partition.ofEquations equations values errors)
        values).mapError Error.evaluation >>= fun J =>
          J.propagate options.combination values errors options.constants := by
  have hchecked : (if options.check then Validation.check tolerance equations values errors
      else .ok ()) = .ok () := by
    split_ifs
    · exact h
    · rfl
  have hdeterminacy : ((Partition.ofEquations equations values errors).checkDeterminacy
      equations.length : Except (Error α) Unit) = .ok () :=
    Partition.checkDeterminacy_eq_ok_iff.mpr (Validation.check_eq_ok_iff.mp h).2.2
  rw [solveEquations_eq, hchecked]
  show solveUnchecked equations values errors options = _
  rw [solveUnchecked, hdeterminacy]
  rfl

/-- Without a check a solve succeeds exactly if the system is determinate, every equation has a row
and the errors propagate. -/
theorem solveEquations_eq_ok_iff {tolerance : α} {equations : List (Equation α)}
    {options : SolveOptions α} {t : Table α} (hcheck : options.check = false) :
    solveEquations tolerance equations values errors options = .ok t ↔
      (Partition.ofEquations equations values errors).unknown.length = equations.length ∧
      (∀ eq ∈ equations,
        eq.HasRow (Partition.ofEquations equations values errors).columns values) ∧
      (Jacobian.ofSlopes equations (Partition.ofEquations equations values errors)
        values).propagate options.combination values errors options.constants = .ok t := by
  unfold solveEquations
  simp only [hcheck, Bool.false_eq_true, if_false, bind_eq_ok_iff, Unique.exists_iff,
    PUnit.default_eq_unit, Partition.checkDeterminacy_eq_ok_iff, mapError_eq_ok_iff,
    Jacobian.ofEquations_eq_ok_iff]
  constructor
  · rintro ⟨hsquare, J, ⟨hrows, rfl⟩, ht⟩
    exact ⟨hsquare, hrows, ht⟩
  · rintro ⟨hsquare, hrows, ht⟩
    exact ⟨hsquare, _, ⟨hrows, rfl⟩, ht⟩

/-- A check depends on the active equations only. -/
theorem check_eq {combo : Option String} :
    s.check values errors combo = s.equations.select combo >>= fun equations =>
      Validation.check s.config.tolerance equations values errors := rfl

/-- The Jacobian depends on the active equations only. -/
theorem jacobian_eq {combo : Option String} :
    s.jacobian values errors combo = s.equations.select combo >>= fun equations =>
      (Jacobian.ofEquations equations (Partition.ofEquations equations values errors)
        values).mapError .evaluation := by
  unfold jacobian partition vars EquationSet.vars
  cases s.equations.select combo <;> rfl

/-- A solve depends on the active equations only. -/
theorem solve_eq {options : SolveOptions α} :
    s.solve values errors options = s.equations.select options.combo >>= fun equations =>
      solveEquations s.config.tolerance equations values errors options := by
  unfold solve solveBy partition vars EquationSet.vars
  cases s.equations.select options.combo <;> rfl

/-- A solve of selected equations. -/
theorem solve_eq_of_select {options : SolveOptions α} {equations : List (Equation α)}
    (hselect : s.equations.select options.combo = .ok equations) :
    s.solve values errors options =
      solveEquations s.config.tolerance equations values errors options := by
  rw [solve_eq, hselect]
  rfl

section Selected

variable {combo : Option String} {equations : List (Equation α)}
  (hselect : s.equations.select combo = .ok equations)

include hselect

omit [Scalar α] in
/-- The variables of selected equations. -/
theorem vars_eq_of_select : s.vars combo = .ok (EquationSet.varsOf equations) := by
  rw [vars, EquationSet.vars, hselect]
  rfl

omit [Scalar α] in
/-- The partition of selected equations. -/
theorem partition_eq_of_select :
    s.partition values errors combo = .ok (Partition.ofEquations equations values errors) := by
  rw [partition, vars_eq_of_select hselect]
  rfl

omit [Scalar α] in
/-- The missing variables of selected equations. -/
theorem missing_eq_of_select : s.missing values errors combo =
    .ok (missingVariables values errors (EquationSet.varsOf equations)) := by
  rw [missing, vars_eq_of_select hselect]
  rfl

/-- A Jacobian of the active equations is that of their slopes, and each of them has a row. -/
theorem jacobian_eq_ok_iff {J : Jacobian α} : s.jacobian values errors combo = .ok J ↔
    (∀ eq ∈ equations,
      eq.HasRow (Partition.ofEquations equations values errors).columns values) ∧
      J = .ofSlopes equations (Partition.ofEquations equations values errors) values := by
  rw [jacobian_eq, hselect, bind_eq_ok_iff]
  simp only [Except.ok.injEq, exists_eq_left', mapError_eq_ok_iff, Jacobian.ofEquations_eq_ok_iff]

end Selected

end Solver

end ErrorBudget
