import ErrorBudget.Proofs.Solver.Completeness

/-!
# Combinations as systems of their own

A question about a combination of the equations is the question without a combination to a solver
that holds only these equations, in the order of the combination, once for each time that it lists
them. A failure that names an equation gives its position in the combination
(`Solver.answers_combo`).

Every question selects the active equations first, and what it does then depends on them and on the
configuration alone (`Solver.AnswersLike.of_select_eq`). That each index of a combination selects an
equation, so that no position is skipped, holds of solvers that are built and edited.
-/

set_option autoImplicit false

namespace ErrorBudget

namespace Validation

variable {α : Type} [Scalar α] {tolerance : α} {values : Point α} {equations : List (Equation α)}

/-- A failure of some equations is the one of an equation at its position. -/
theorem exists_of_mem_residualFailuresFrom {index : Nat} {e : Error α}
    (h : e ∈ residualFailuresFrom tolerance values index equations) :
    ∃ (k : Nat) (eq : Equation α), equations[k]? = some eq ∧
      residualFailure? tolerance values (index + k) eq = some e := by
  induction equations generalizing index with
  | nil => simp [residualFailuresFrom] at h
  | cons eq eqs ih =>
    rw [residualFailuresFrom, List.mem_append, Option.mem_toList] at h
    rcases h with hfirst | hrest
    · exact ⟨0, eq, rfl, hfirst⟩
    · obtain ⟨k, eq', hk, he⟩ := ih hrest
      refine ⟨k + 1, eq', hk, ?_⟩
      rwa [show index + (k + 1) = index + 1 + k by omega]

end Validation

namespace Solver

variable {α : Type} [Scalar α]

/-- A solver that holds only the equations of another one at some indices, in the order of these
indices, and has the same configuration. -/
structure HoldsOnly (s' s : Solver α) (is : List Nat) : Prop where
  config : s'.config = s.config
  equations : s'.equations.equations.toList.map some = is.map s.equations.get?

/-- A solver answers about some active equations as another one does. -/
structure AnswersLike [Numeral α] (s : Solver α) (combo : Option String) (s' : Solver α)
    (combo' : Option String) : Prop where
  vars : s.vars combo = s'.vars combo'
  used : ∀ values errors, s.partition values errors combo = s'.partition values errors combo'
  unused : ∀ values errors, s.unused values errors combo = s'.unused values errors combo'
  missing : ∀ values errors, s.missing values errors combo = s'.missing values errors combo'
  check : ∀ values errors, s.check values errors combo = s'.check values errors combo'
  diagnose : ∀ values errors, s.diagnose values errors combo = s'.diagnose values errors combo'
  jacobian : ∀ values errors, s.jacobian values errors combo = s'.jacobian values errors combo'
  solve : ∀ values errors (options : SolveOptions α),
    s.solve values errors { options with combo := combo } =
      s'.solve values errors { options with combo := combo' }

/-- The failures that can be met with the equations at some indices. One that names an equation
gives its position among them. -/
inductive Locates (s : Solver α) (is : List Nat) : Error α → Prop
  | restricted {names} : Locates s is (.restricted names)
  | unsatisfied {k i eq residual tolerance} (hk : is[k]? = some i)
      (heq : s.equations.get? i = some eq) :
      Locates s is (.unsatisfied k eq.subject residual tolerance)
  | missingValues {k i eq names} (hk : is[k]? = some i) (heq : s.equations.get? i = some eq) :
      Locates s is (.missingValues k eq.subject names)
  | evaluation {e} : Locates s is (.evaluation e)
  | indeterminate {equations unknowns advice} :
      Locates s is (.indeterminate equations unknowns advice)
  | singular {unknowns} : Locates s is (.singular unknowns)

/-- All failures about a combination give positions in it, also those that a diagnosis collects. -/
structure LocatesWithin [Numeral α] (s : Solver α) (name : String) (is : List Nat) : Prop where
  check : ∀ values errors e, s.check values errors (some name) = .error e → s.Locates is e
  diagnose : ∀ values errors, ∃ (failures : List (Error α)) (p : Partition) (missing : NameSet),
    (∀ e ∈ failures, s.Locates is e) ∧
    s.partition values errors (some name) = .ok p ∧
    s.missing values errors (some name) = .ok missing ∧
    s.diagnose values errors (some name) = .ok
      ⟨Validation.messagesOf (Validation.checkRestricted values errors) ++
        failures.map Error.message ++ Validation.missingMessages missing.toList ++
        Validation.messagesOf (p.checkDeterminacy is.length : Except (Error α) Unit)⟩
  jacobian : ∀ values errors e, s.jacobian values errors (some name) = .error e → s.Locates is e
  solve : ∀ values errors (options : SolveOptions α) e,
    s.solve values errors { options with combo := some name } = .error e → s.Locates is e

variable {s s' : Solver α} {values errors : Point α} {is : List Nat} {equations : List (Equation α)}

/-- What a solver answers depends on the active equations and its configuration. -/
theorem AnswersLike.of_select_eq [Numeral α] {combo combo' : Option String}
    (hconfig : s'.config = s.config)
    (hselect : s.equations.select combo = s'.equations.select combo') :
    s.AnswersLike combo s' combo' := by
  have hvars : s.vars combo = s'.vars combo' :=
    congrArg (Except.map EquationSet.varsOf) hselect
  refine ⟨hvars, ?_, ?_, ?_, ?_, ?_, ?_, ?_⟩
  · intro values errors
    exact congrArg (Except.map (Partition.ofInputs values errors)) hvars
  · intro values errors
    exact congrArg (Except.map (unusedVariables values errors)) hvars
  · intro values errors
    exact congrArg (Except.map (missingVariables values errors)) hvars
  · intro values errors
    rw [check_eq, check_eq, hselect, hconfig]
  · intro values errors
    rw [Solver.diagnose, Solver.diagnose, hselect, hconfig]
  · intro values errors
    rw [jacobian_eq, jacobian_eq, hselect]
  · intro values errors options
    rw [solve_eq, solve_eq, hselect, hconfig]
    rfl

section Positions

omit [Scalar α] in
/-- A failure of determinacy names no equation. -/
theorem locates_of_checkDeterminacy {p : Partition} {n : Nat} {e : Error α}
    (h : p.checkDeterminacy n = .error e) : s.Locates is e := by
  unfold Partition.checkDeterminacy at h
  split at h
  · contradiction
  · exact Except.error.inj h ▸ .indeterminate

variable (hequations : equations.map some = is.map s.equations.get?)

include hequations

/-- A residual that fails names the equation at its index. -/
theorem locates_of_residualFailure {tolerance : α} {k : Nat} {eq : Equation α} {e : Error α}
    (hk : equations[k]? = some eq)
    (he : Validation.residualFailure? tolerance values k eq = some e) : s.Locates is e := by
  obtain ⟨i, hi, heq⟩ : ∃ i, is[k]? = some i ∧ s.equations.get? i = some eq := by
    have hentry : (equations.map some)[k]? = (is.map s.equations.get?)[k]? := by rw [hequations]
    simpa [hk] using hentry.symm
  unfold Validation.residualFailure? at he
  split at he
  · split at he
    · exact Option.some.inj he ▸ .evaluation
    · split at he
      · contradiction
      · exact Option.some.inj he ▸ .unsatisfied hi heq
  · exact Option.some.inj he ▸ .missingValues hi heq

/-- Each residual that fails names an equation of the combination. -/
theorem locates_of_mem_residualFailures {tolerance : α} {e : Error α}
    (h : e ∈ Validation.residualFailures tolerance values equations) : s.Locates is e := by
  obtain ⟨k, eq, hk, he⟩ := Validation.exists_of_mem_residualFailuresFrom h
  rw [Nat.zero_add] at he
  exact locates_of_residualFailure hequations hk he

/-- A check that fails names no equation but one of the combination. -/
theorem locates_of_check {tolerance : α} {e : Error α}
    (h : Validation.check tolerance equations values errors = .error e) : s.Locates is e := by
  rcases bind_eq_error_iff.mp h with hrestricted | ⟨-, -, h⟩
  · unfold Validation.checkRestricted at hrestricted
    split at hrestricted
    · contradiction
    · exact Except.error.inj hrestricted ▸ .restricted
  · rcases bind_eq_error_iff.mp h with hresidual | ⟨-, -, hdeterminacy⟩
    · cases hfailures : Validation.residualFailures tolerance values equations with
      | nil => simp [hfailures, Validation.firstOf] at hresidual
      | cons first rest =>
        obtain rfl : first = e := by simpa [hfailures, Validation.firstOf] using hresidual
        exact locates_of_mem_residualFailures hequations (hfailures ▸ List.mem_cons_self)
    · exact locates_of_checkDeterminacy hdeterminacy

/-- A solve that fails names no equation but one of the combination. -/
theorem locates_of_solveEquations {tolerance : α} {options : SolveOptions α} {e : Error α}
    (h : solveEquations tolerance equations values errors options = .error e) :
    s.Locates is e := by
  rw [solveEquations_eq] at h
  rcases bind_eq_error_iff.mp h with hcheck | ⟨-, -, h⟩
  · split_ifs at hcheck
    exact locates_of_check hequations hcheck
  · rcases bind_eq_error_iff.mp h with hdeterminacy | ⟨-, -, h⟩
    · exact locates_of_checkDeterminacy hdeterminacy
    · rcases bind_eq_error_iff.mp h with hjacobian | ⟨J, -, hpropagate⟩
      · obtain ⟨e', -, rfl⟩ := mapError_eq_error_iff.mp hjacobian
        exact .evaluation
      · rcases Jacobian.eq_of_propagate_eq_error hpropagate with rfl | ⟨e', rfl⟩
        · exact .singular
        · exact .evaluation

/-- Positions in a combination are positions in the list of the equations that it selects. -/
theorem locatesWithin_of_select [Numeral α] {name : String}
    (hselect : s.equations.select (some name) = .ok equations) : s.LocatesWithin name is := by
  refine ⟨?_, ?_, ?_, ?_⟩
  · intro values errors e h
    rw [check_eq, hselect] at h
    exact locates_of_check hequations h
  · intro values errors
    refine ⟨Validation.residualFailures s.config.tolerance values equations,
      Partition.ofEquations equations values errors,
      missingVariables values errors (EquationSet.varsOf equations),
      fun e => locates_of_mem_residualFailures hequations, partition_eq_of_select hselect,
      missing_eq_of_select hselect, ?_⟩
    have hlength : equations.length = is.length := by
      simpa using congrArg List.length hequations
    rw [diagnose, hselect, ← hlength]
    rfl
  · intro values errors e h
    rw [jacobian_eq, hselect] at h
    obtain ⟨e', -, rfl⟩ := mapError_eq_error_iff.mp h
    exact .evaluation
  · intro values errors options e h
    rw [solve_eq_of_select hselect] at h
    exact locates_of_solveEquations hequations h

end Positions

/-- The answers about a combination are those of a solver that holds only its equations, and there
is such a solver. Failures give positions in the combination. -/
theorem answers_combo [Numeral α] (hs : s.Reachable) {name : String} {is : List Nat}
    (hcombo : s.equations.combo name = .ok is) :
    (∃ s' : Solver α, s'.HoldsOnly s is) ∧
      (∀ s' : Solver α, s'.HoldsOnly s is → s.AnswersLike (some name) s' none) ∧
      s.LocatesWithin name is := by
  obtain ⟨edits, hedits⟩ := hs.exists_run
  have hbelow := (EquationSet.consistent_run edits).below
  rw [← hedits] at hbelow
  obtain ⟨equations, hselect, hequations⟩ := hbelow.exists_select_eq hcombo
  refine ⟨⟨⟨{ equations := equations.toArray }, s.config⟩, rfl, hequations⟩, ?_,
    locatesWithin_of_select hequations hselect⟩
  intro s' hs'
  have hsame : s'.equations.equations.toList = equations :=
    List.map_injective_iff.mpr (Option.some_injective _) (hs'.equations.trans hequations.symm)
  exact .of_select_eq hs'.config (hselect.trans (congrArg Except.ok hsame.symm))

/-- Two equations taken backwards and the first one of these again: where the values do not satisfy
`y = 3*x`, the failure is that of the equation at position 1, which is stored at index 0. -/
theorem answers_combo_backwards :
    ∃ s s' : Solver Float, s.Reachable ∧ s.equations.combo "back" = .ok [1, 0, 1] ∧
      s'.HoldsOnly s [1, 0, 1] ∧ s.AnswersLike (some "back") s' none ∧
      ∃ eq residual tolerance, s.equations.get? 0 = some eq ∧
        s.check (NameMap.ofEntries [("x", 2), ("y", 7), ("z", 14)]) ∅ (some "back") =
          .error (.unsatisfied 1 eq.subject residual tolerance) := by
  let edits : List (Edit Float) :=
    [.equation "y = 3*x", .equation "z = x*y", .combo "back" [1, 0, 1]]
  let s : Solver Float := ⟨EquationSet.run {} edits, Config.standard⟩
  have hreachable : s.Reachable := .ofEquations
  have hcombo : (s.equations.combo "back").toOption = some [1, 0, 1] := by decide +kernel
  have hfailure : (match s.check (NameMap.ofEntries [("x", 2), ("y", 7), ("z", 14)]) ∅
      (some "back") with
      | .error (.unsatisfied k _ _ _) => k == 1
      | _ => false) = true := by decide +kernel
  obtain ⟨⟨s', hs'⟩, hanswers, hlocates⟩ :=
    answers_combo hreachable (toOption_eq_some_iff.mp hcombo)
  refine ⟨s, s', hreachable, toOption_eq_some_iff.mp hcombo, hs', hanswers s' hs', ?_⟩
  split at hfailure
  · rename_i k subject residual tolerance hcheck
    obtain rfl : k = 1 := by simpa using hfailure
    cases hlocates.check _ _ _ hcheck with
    | @unsatisfied _ i eq _ _ hk heq =>
      obtain rfl : 0 = i := by simpa using hk
      exact ⟨eq, residual, tolerance, heq, hcheck⟩
  · contradiction

end Solver

end ErrorBudget
