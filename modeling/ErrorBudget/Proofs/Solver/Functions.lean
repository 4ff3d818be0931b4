import ErrorBudget.Double
import ErrorBudget.Proofs.EquationSet.Invariant
import ErrorBudget.Proofs.Solver.Steps

/-!
# Functions at incomplete points

The functions of an equation are never asked about a point that leaves one of its variables without
a number. So nothing that can be asked of a solver depends on what they would do there: two solvers
whose functions do the same at complete points have the same answers, also about incomplete ones
(`Solver.answersAlike_of_matches`). A function may as well be undefined at all the other points
(`Equation.guarded`).
-/

set_option autoImplicit false

namespace ErrorBudget

variable {α : Type}

namespace Equation

/-- Whether two equations are the same, but for what their functions do at points that leave one of
the variables without a number. -/
inductive Matches : Equation α → Equation α → Prop
  | kept {eq} : Matches eq eq
  | changed {label residual residual'} {partials partials' : NameMap (Point α → α)}
      (hkeys : partials'.keys = partials.keys)
      (hresidual : ∀ p, (∀ z ∈ partials.keys, z ∈ p) → residual' p = residual p)
      (hpartials : ∀ (x : String) (f f' : Point α → α), partials[x]? = some f →
        partials'[x]? = some f' → ∀ p, (∀ z ∈ partials.keys, z ∈ p) → f' p = f p) :
      Matches (native label residual partials) (native label residual' partials')

namespace Matches

variable {eq eq' : Equation α}

/-- Matching equations have the same variables. -/
theorem vars_eq (h : eq.Matches eq') : eq'.vars = eq.vars := by
  cases h with
  | kept => rfl
  | changed hkeys => exact hkeys

/-- Matching equations are reported under the same subject. -/
theorem subject_eq (h : eq.Matches eq') : eq'.subject = eq.subject := by
  cases h <;> rfl

/-- Matching equations have the same unresolved variables. -/
theorem unresolved_eq (h : eq.Matches eq') (p : Point α) : eq'.unresolved p = eq.unresolved p := by
  rw [unresolved, h.vars_eq, ← unresolved]

/-- Matching equations require the same variables. -/
theorem requireResolved_eq (h : eq.Matches eq') (p : Point α) :
    eq'.requireResolved p = eq.requireResolved p := by
  rw [requireResolved, h.unresolved_eq, h.subject_eq, ← requireResolved]

variable [Scalar α]

/-- The residual is not looked at before the point is known to be complete. -/
theorem evaluate_eq (h : eq.Matches eq') (p : Point α) : eq'.evaluate p = eq.evaluate p := by
  unfold evaluate
  rw [h.requireResolved_eq]
  apply bind_congr_of_ok
  intro _ hresolved
  cases h with
  | kept => rfl
  | changed _ hresidual =>
    exact congrArg (definedAs _) (hresidual p (requireResolved_eq_ok_iff.mp hresolved))

/-- Nor are the derivatives. -/
theorem partialAt_eq (h : eq.Matches eq') (x : String) (p : Point α) :
    eq'.partialAt x p = eq.partialAt x p := by
  by_cases hx : x ∈ eq.vars
  · have hrequired := h.requireResolved_eq p
    cases h with
    | kept => rfl
    | @changed label residual residual' partials partials' hkeys _ hpartials =>
      have hx' : x ∈ partials'.keys := hkeys ▸ hx
      obtain ⟨f, hf⟩ := NameMap.exists_getElem?_iff.mpr (Std.ExtTreeMap.mem_keys.mp hx)
      obtain ⟨f', hf'⟩ := NameMap.exists_getElem?_iff.mpr (Std.ExtTreeMap.mem_keys.mp hx')
      simp only [partialAt, hf, hf', hrequired]
      apply bind_congr_of_ok
      intro _ hresolved
      rw [hpartials x f f' hf hf' p (requireResolved_eq_ok_iff.mp hresolved)]
  · rw [partialAt_of_not_mem hx, partialAt_of_not_mem (h.vars_eq ▸ hx)]

/-- Matching equations have the same failure of their residual. -/
theorem residualFailure?_eq (h : eq.Matches eq') (tolerance : α) (values : Point α)
    (index : Nat) : Validation.residualFailure? tolerance values index eq' =
      Validation.residualFailure? tolerance values index eq := by
  unfold Validation.residualFailure?
  rw [h.unresolved_eq, h.evaluate_eq, h.subject_eq]

/-- Matching equations have the same row of derivatives. -/
theorem rowOf_eq (h : eq.Matches eq') (columns : List String) (values : Point α) :
    Jacobian.rowOf columns values eq' = Jacobian.rowOf columns values eq := by
  simp only [Jacobian.rowOf, h.vars_eq, h.subject_eq, h.partialAt_eq]

end Matches

section Guarded

variable [Scalar α]

/-- A function that is undefined unless some names have numbers. -/
def guard (names : List String) (f : Point α → α) (p : Point α) : α :=
  if ∀ z ∈ names, z ∈ p then f p else Scalar.nan

/-- An equation whose functions are undefined at incomplete points. -/
def guarded : Equation α → Equation α
  | .symbolic label e partials => .symbolic label e partials
  | .native label residual partials =>
    .native label (guard partials.keys residual) (partials.map fun _ f => guard partials.keys f)

/-- A guarded equation matches the equation. -/
theorem matches_guarded (eq : Equation α) : eq.Matches eq.guarded := by
  cases eq with
  | symbolic label e partials => exact .kept
  | native label residual partials =>
    refine .changed Std.ExtTreeMap.keys_map (fun p hp => if_pos hp) ?_
    intro x f f' hf hf' p hp
    rw [Std.ExtTreeMap.getElem?_map, hf, Option.map_some] at hf'
    rw [← Option.some.inj hf']
    exact if_pos hp

end Guarded

end Equation

section Equations

variable {equations equations' : List (Equation α)} {values errors : Point α} {tolerance : α}

/-- Equations that match one by one. -/
def AreMatched : List (Equation α) → List (Equation α) → Prop :=
  List.Forall₂ Equation.Matches

namespace AreMatched

/-- Matching lists of equations have the same variables. -/
theorem varsOf_eq (h : AreMatched equations equations') :
    EquationSet.varsOf equations' = EquationSet.varsOf equations :=
  EquationSet.varsOf_congr (h.imp fun _ _ hmatches => hmatches.vars_eq)

/-- Matching lists of equations have the same partition. -/
theorem partition_eq (h : AreMatched equations equations') :
    Partition.ofEquations equations' values errors =
      Partition.ofEquations equations values errors := by
  rw [Partition.ofEquations, h.varsOf_eq, ← Partition.ofEquations]

variable [Scalar α]

/-- Matching lists of equations have the same failures of their residuals. -/
theorem residualFailures_eq (h : AreMatched equations equations') :
    Validation.residualFailures tolerance values equations' =
      Validation.residualFailures tolerance values equations := by
  unfold Validation.residualFailures
  generalize 0 = index
  induction h generalizing index with
  | nil => rfl
  | cons hfirst _ ih =>
    rw [Validation.residualFailuresFrom, Validation.residualFailuresFrom,
      hfirst.residualFailure?_eq, ih]

/-- Matching lists of equations are checked alike. -/
theorem check_eq (h : AreMatched equations equations') :
    Validation.check tolerance equations' values errors =
      Validation.check tolerance equations values errors := by
  unfold Validation.check
  rw [h.residualFailures_eq, h.varsOf_eq, h.length_eq]

/-- Matching lists of equations are diagnosed alike. -/
theorem diagnose_eq [Numeral α] (h : AreMatched equations equations') :
    Validation.diagnose tolerance equations' values errors =
      Validation.diagnose tolerance equations values errors := by
  unfold Validation.diagnose
  rw [h.residualFailures_eq, h.varsOf_eq, h.length_eq]

/-- Matching lists of equations have the same Jacobian. -/
theorem ofEquations_eq (h : AreMatched equations equations') (p : Partition) :
    Jacobian.ofEquations equations' p values = Jacobian.ofEquations equations p values := by
  have hrows : equations'.mapM (Jacobian.rowOf p.columns values) =
      equations.mapM (Jacobian.rowOf p.columns values) := by
    induction h with
    | nil => rfl
    | cons hfirst _ ih => rw [List.mapM_cons, List.mapM_cons, hfirst.rowOf_eq, ih]
  rw [Jacobian.ofEquations, Jacobian.ofEquations, hrows]

/-- Matching lists of equations are solved alike. -/
theorem solveEquations_eq (h : AreMatched equations equations') {options : SolveOptions α} :
    Solver.solveEquations tolerance equations' values errors options =
      Solver.solveEquations tolerance equations values errors options := by
  unfold Solver.solveEquations
  rw [h.check_eq, h.partition_eq, h.length_eq, h.ofEquations_eq]

end AreMatched

end Equations

namespace Solver

variable {s s' : Solver α}

/-- Whether two solvers are the same, but for what the functions of their equations do at incomplete
points. -/
structure Matches (s s' : Solver α) : Prop where
  equations : AreMatched s.equations.equations.toList s'.equations.equations.toList
  combos : s'.equations.combos = s.equations.combos
  config : s'.config = s.config

/-- Whether two solvers have the same answers to all questions that can involve the functions of an
equation. -/
structure AnswersAlike [Scalar α] [Numeral α] (s s' : Solver α) : Prop where
  check : ∀ values errors combo, s.check values errors combo = s'.check values errors combo
  diagnose : ∀ values errors combo,
    s.diagnose values errors combo = s'.diagnose values errors combo
  residualFailures : ∀ tolerance values combo,
    (s.equations.select combo).map (Validation.residualFailures tolerance values) =
      (s'.equations.select combo).map (Validation.residualFailures tolerance values)
  jacobian : ∀ values errors combo,
    s.jacobian values errors combo = s'.jacobian values errors combo
  solve : ∀ values errors options, s.solve values errors options = s'.solve values errors options
  evaluate : ∀ i p, (s.equations.get? i).map (·.evaluate p) =
    (s'.equations.get? i).map (·.evaluate p)
  partialAt : ∀ i x p, (s.equations.get? i).map (·.partialAt x p) =
    (s'.equations.get? i).map (·.partialAt x p)

/-- What follows the selection of the active equations has the same result if it does not tell
matching equations apart. -/
theorem Matches.bind_select_eq {β : Type} (h : s.Matches s') (combo : Option String)
    {next next' : List (Equation α) → Except (Error α) β}
    (hnext : ∀ eqs eqs', AreMatched eqs eqs' → next eqs = next' eqs') :
    s.equations.select combo >>= next = s'.equations.select combo >>= next' := by
  rcases EquationSet.select_cases h.equations h.combos combo with
    ⟨e, he, he'⟩ | ⟨eqs, eqs', heqs, heqs', hmatched⟩
  · rw [he, he']
    rfl
  · rw [heqs, heqs']
    exact hnext eqs eqs' hmatched

/-- What matching equations have in common is the same at each index of matching sets. -/
theorem Matches.map_get?_eq {β : Type} (h : s.Matches s') (i : Nat) {f : Equation α → β}
    (hf : ∀ eq eq', eq.Matches eq' → f eq = f eq') :
    (s.equations.get? i).map f = (s'.equations.get? i).map f := by
  have hrel := EquationSet.rel_get? h.equations i
  generalize s.equations.get? i = eq?, s'.equations.get? i = eq?' at hrel
  cases hrel with
  | none => rfl
  | some hmatches => exact congrArg some (hf _ _ hmatches)

variable [Scalar α]

/-- Nothing that a solver answers depends on what functions do at points that leave a variable of
their equation without a number. -/
theorem answersAlike_of_matches [Numeral α] (h : s.Matches s') : s.AnswersAlike s' := by
  refine ⟨?_, ?_, ?_, ?_, ?_, ?_, ?_⟩
  · intro values errors combo
    rw [check_eq, check_eq, h.config]
    exact h.bind_select_eq combo fun _ _ hmatched => hmatched.check_eq.symm
  · intro values errors combo
    rw [diagnose, diagnose, h.config]
    apply h.bind_select_eq combo
    intro _ _ hmatched
    rw [hmatched.diagnose_eq]
  · intro tolerance values combo
    rw [map_eq_bind, map_eq_bind]
    apply h.bind_select_eq combo
    intro _ _ hmatched
    rw [hmatched.residualFailures_eq]
  · intro values errors combo
    rw [jacobian_eq, jacobian_eq]
    apply h.bind_select_eq combo
    intro _ _ hmatched
    rw [hmatched.partition_eq, hmatched.ofEquations_eq]
  · intro values errors options
    rw [solve_eq, solve_eq, h.config]
    exact h.bind_select_eq options.combo fun _ _ hmatched => hmatched.solveEquations_eq.symm
  · intro i p
    exact h.map_get?_eq i fun _ _ hmatches => (hmatches.evaluate_eq p).symm
  · intro i x p
    exact h.map_get?_eq i fun _ _ hmatches => (hmatches.partialAt_eq x p).symm

/-- A solver all of whose functions are undefined at incomplete points. -/
def guarded (s : Solver α) : Solver α :=
  { s with equations := { s.equations with
      equations := s.equations.equations.map Equation.guarded } }

/-- A guarded solver matches the solver. -/
theorem matches_guarded (s : Solver α) : s.Matches s.guarded := by
  refine ⟨?_, rfl, rfl⟩
  rw [AreMatched, guarded, Array.toList_map, List.forall₂_map_right_iff, List.forall₂_same]
  exact fun eq _ => eq.matches_guarded

/-- An area given by functions, next to an expression. Without any numbers the residual is zero, but
undefined if it is guarded. -/
theorem answersAlike_of_matches_area :
    let residual : Point Float → Float := fun p => p.getD "A" 0 - p.getD "y" 0 * p.getD "y" 0
    let partials : NameMap (Point Float → Float) :=
      NameMap.ofEntries [("A", fun _ => 1), ("y", fun p => -2 * p.getD "y" 0)]
    let line : Expr Float := .sub (.symbol "y") (.mul (.number 3) (.symbol "x"))
    let s : Solver Float :=
      ⟨{ equations := #[.ofExpr "y = 3*x" line, .native "A - y*y" residual partials] },
        Config.standard⟩
    s.Matches s.guarded ∧ s.AnswersAlike s.guarded ∧
      Scalar.isNaN (residual ∅) = false ∧
      Scalar.isNaN (Equation.guard partials.keys residual ∅) = true := by
  intro residual partials line s
  exact ⟨s.matches_guarded, answersAlike_of_matches s.matches_guarded, by decide +kernel,
    by decide +kernel⟩

end Solver

end ErrorBudget
