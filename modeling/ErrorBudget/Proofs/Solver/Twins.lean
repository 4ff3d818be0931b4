import ErrorBudget.Error.Kind
import ErrorBudget.Proofs.Equation.Twin
import ErrorBudget.Proofs.Solver.Completeness
import ErrorBudget.Proofs.Solver.Steps

/-!
# Solvers with twins

A solver some of whose equations are replaced by their twins. Checks have the same outcome, and so
do the Jacobian and a solve, unless a variable of a replaced equation lacks a value
(`Solver.agreesWith_of_replaces`). Then the twin refuses to be differentiated, while the derivative
of the expression may be found without this value.
-/

set_option autoImplicit false

namespace ErrorBudget

/-- Whether two steps have the same result or fail with errors of the same kind. -/
def SameOutcome {α β : Type} (a b : Except (Error α) β) : Prop :=
  a.mapError Error.kind = b.mapError Error.kind

/-- The kind of the failure of a step, if it fails. -/
def failure? {α β : Type} : Except (Error α) β → Option ErrorKind
  | .ok _ => none
  | .error e => some e.kind

namespace SameOutcome

variable {α β γ : Type} {a b : Except (Error α) β}

/-- An outcome is the same as itself. -/
theorem refl (a : Except (Error α) β) : SameOutcome a a := rfl

/-- Failures of the same kind are the same outcome. -/
theorem of_kind_eq {e e' : Error α} (h : e.kind = e'.kind) :
    SameOutcome (.error e : Except (Error α) β) (.error e') :=
  congrArg Except.error h

/-- The same outcomes fail with the same kind of failure, or not at all. -/
theorem failure?_eq (h : SameOutcome a b) : failure? a = failure? b := by
  cases a with
  | error e =>
    cases b with
    | error e' => exact congrArg some (Except.error.inj h)
    | ok y => contradiction
  | ok x =>
    cases b with
    | error e' => contradiction
    | ok y => rfl

/-- Two steps have the same outcome if the first ones do, and the second ones after them. -/
theorem bind {f g : β → Except (Error α) γ} (h : SameOutcome a b)
    (hnext : ∀ x, a = .ok x → SameOutcome (f x) (g x)) :
    SameOutcome (a >>= f) (b >>= g) := by
  cases a with
  | error e =>
    cases b with
    | error e' => exact of_kind_eq (Except.error.inj h)
    | ok y => contradiction
  | ok x =>
    cases b with
    | error e' => contradiction
    | ok y =>
      obtain rfl : x = y := Except.ok.inj h
      exact hnext x rfl

end SameOutcome

/-- Whether some of the equations of a set are replaced by their twins. -/
structure EquationSet.Replaces (s s' : EquationSet Float) : Prop where
  equations : List.Forall₂ Equation.Replaces s.equations.toList s'.equations.toList
  combos : s'.combos = s.combos

/-- Whether some of the equations of a solver are replaced by their twins. -/
structure Solver.Replaces (s s' : Solver Float) : Prop where
  equations : s.equations.Replaces s'.equations
  config : s'.config = s.config

/-- Whether a variable of a replaced equation lacks a value. -/
def LacksValue (equations equations' : List (Equation Float)) (values : Point Float) : Prop :=
  ∃ pair ∈ equations.zip equations', pair.2.isNative ≠ pair.1.isNative ∧
    ∃ x ∈ pair.1.vars, x ∉ values

/-- Equations with their derivatives, some of which are replaced. -/
def AreReplaced : List (Equation Float) → List (Equation Float) → Prop :=
  List.Forall₂ fun eq eq' => (∃ edits, eq.IsFaithful edits) ∧ eq.Replaces eq'

section Equations

variable {equations equations' : List (Equation Float)} {values errors : Point Float}
  {tolerance : Float} {options : SolveOptions Float}

/-- Replaced equations have the same variables. -/
theorem AreReplaced.varsOf_eq (h : AreReplaced equations equations') :
    EquationSet.varsOf equations' = EquationSet.varsOf equations := by
  apply EquationSet.varsOf_congr
  apply List.Forall₂.imp _ h
  rintro eq eq' ⟨⟨edits, hfaithful⟩, hreplaces⟩
  exact hreplaces.vars_eq hfaithful

/-- Replaced equations have the same partition. -/
theorem AreReplaced.partition_eq (h : AreReplaced equations equations') :
    Partition.ofEquations equations' values errors =
      Partition.ofEquations equations values errors := by
  rw [Partition.ofEquations, h.varsOf_eq, ← Partition.ofEquations]

section Checks

/-- A replaced equation has the same kind of failure of its residual. -/
theorem kind_residualFailure? {eq eq' : Equation Float} {edits : List (Edit Float)} {index : Nat}
    (h : eq.Replaces eq') (hfaithful : eq.IsFaithful edits) :
    (Validation.residualFailure? tolerance values index eq').map Error.kind =
      (Validation.residualFailure? tolerance values index eq).map Error.kind := by
  have hunresolved : eq'.unresolved values = eq.unresolved values := by
    rw [Equation.unresolved, h.vars_eq hfaithful, ← Equation.unresolved]
  have hvalue {y : Float} := @Equation.Replaces.evaluate_eq_ok_iff _ _ _ values y h hfaithful
  unfold Validation.residualFailure?
  rw [hunresolved]
  split
  · cases heq : eq.evaluate values with
    | ok residual =>
      rw [hvalue.mpr heq]
      dsimp only
      split_ifs
      · rfl
      · rfl
    | error e =>
      cases heq' : eq'.evaluate values with
      | ok residual =>
        rw [hvalue.mp heq'] at heq
        contradiction
      | error e' => rfl
  · rfl

/-- Replaced equations have the same kinds of failures of their residuals. -/
theorem AreReplaced.kind_residualFailures (h : AreReplaced equations equations') (index : Nat) :
    (Validation.residualFailuresFrom tolerance values index equations').map Error.kind =
      (Validation.residualFailuresFrom tolerance values index equations).map Error.kind := by
  induction h generalizing index with
  | nil => rfl
  | cons hfirst _ ih =>
    obtain ⟨⟨edits, hfaithful⟩, hreplaces⟩ := hfirst
    rw [Validation.residualFailuresFrom, Validation.residualFailuresFrom, List.map_append,
      List.map_append, ih, ← Option.toList_map, ← Option.toList_map,
      kind_residualFailure? hreplaces hfaithful]

/-- The first of failures of the same kinds is the same outcome. -/
theorem sameOutcome_firstOf {failures failures' : List (Error Float)}
    (h : failures.map Error.kind = failures'.map Error.kind) :
    SameOutcome (Validation.firstOf failures) (Validation.firstOf failures') := by
  cases failures with
  | nil =>
    cases failures' with
    | nil => rfl
    | cons e' failures' => contradiction
  | cons e failures =>
    cases failures' with
    | nil => contradiction
    | cons e' failures' => exact SameOutcome.of_kind_eq (List.cons.inj h).1

/-- A check of replaced equations has the same outcome. -/
theorem AreReplaced.sameOutcome_check (h : AreReplaced equations equations') :
    SameOutcome (Validation.check tolerance equations values errors)
      (Validation.check tolerance equations' values errors) := by
  unfold Validation.check
  apply (SameOutcome.refl _).bind
  intro _ _
  apply (sameOutcome_firstOf (h.kind_residualFailures 0).symm).bind
  intro _ _
  rw [h.varsOf_eq, ← h.length_eq]
  exact .refl _

end Checks

section Jacobians

/-- A variable lacks a value in the first equation or in one of the others. -/
theorem lacksValue_cons {eq eq' : Equation Float} :
    LacksValue (eq :: equations) (eq' :: equations') values ↔
      (eq'.isNative ≠ eq.isNative ∧ ∃ x ∈ eq.vars, x ∉ values) ∨
        LacksValue equations equations' values := by
  simp [LacksValue]

/-- The rows of twins are those of the equations, provided that the variables have values. -/
theorem AreReplaced.hasRow_iff (h : AreReplaced equations equations') {columns : List String} :
    (∀ eq' ∈ equations', eq'.HasRow columns values) ↔
      (∀ eq ∈ equations, eq.HasRow columns values) ∧ ¬LacksValue equations equations' values := by
  induction h with
  | nil => simp [LacksValue]
  | cons hfirst _ ih =>
    obtain ⟨⟨edits, hfaithful⟩, hreplaces⟩ := hfirst
    rw [List.forall_mem_cons, List.forall_mem_cons, ih, hreplaces.hasRow_iff hfaithful,
      lacksValue_cons, not_or]
    push Not
    rw [← or_iff_not_imp_left]
    exact and_and_and_comm

/-- Replaced equations have the same slopes, where all rows are defined. -/
theorem AreReplaced.slopes_eq (h : AreReplaced equations equations') {columns : List String}
    (hrows : ∀ eq' ∈ equations', eq'.HasRow columns values) :
    equations'.map (fun eq => eq.slopes values) = equations.map (fun eq => eq.slopes values) := by
  induction h with
  | nil => rfl
  | cons hfirst _ ih =>
    obtain ⟨⟨edits, hfaithful⟩, hreplaces⟩ := hfirst
    obtain ⟨hrow, hrest⟩ := List.forall_mem_cons.mp hrows
    rw [List.map_cons, List.map_cons, hreplaces.slopes_eq hfaithful hrow, ih hrest]

/-- The Jacobian is the same, provided that the variables of the replaced equations have values. -/
theorem AreReplaced.ofEquations_eq_ok_iff (h : AreReplaced equations equations') (p : Partition)
    {J : Jacobian Float} : Jacobian.ofEquations equations' p values = .ok J ↔
      Jacobian.ofEquations equations p values = .ok J ∧
        ¬LacksValue equations equations' values := by
  have hslopes (hrows : ∀ eq' ∈ equations', eq'.HasRow p.columns values) :
      Jacobian.ofSlopes equations' p values = Jacobian.ofSlopes equations p values := by
    rw [Jacobian.ofSlopes, h.slopes_eq hrows, ← Jacobian.ofSlopes]
  rw [Jacobian.ofEquations_eq_ok_iff, Jacobian.ofEquations_eq_ok_iff]
  constructor
  · rintro ⟨hrows, rfl⟩
    obtain ⟨hrows', hvalues⟩ := h.hasRow_iff.mp hrows
    exact ⟨⟨hrows', hslopes hrows⟩, hvalues⟩
  · rintro ⟨⟨hrows, rfl⟩, hvalues⟩
    have hrows' := h.hasRow_iff.mpr ⟨hrows, hvalues⟩
    exact ⟨hrows', (hslopes hrows').symm⟩

/-- Where the Jacobians differ, a variable of a replaced equation lacks a value. -/
theorem AreReplaced.jacobian_cases (h : AreReplaced equations equations') (p : Partition) :
    let left := (Jacobian.ofEquations equations p values).mapError Error.evaluation
    let right := (Jacobian.ofEquations equations' p values).mapError Error.evaluation
    SameOutcome left right ∨ LacksValue equations equations' values ∧
      (∃ J, left = .ok J) ∧ ∃ e, right = .error (.evaluation e) := by
  intro left right
  have hright {J : Jacobian Float} :
      right = .ok J ↔ left = .ok J ∧ ¬LacksValue equations equations' values := by
    rw [mapError_eq_ok_iff, mapError_eq_ok_iff]
    exact h.ofEquations_eq_ok_iff p
  have hfailure {r : Except (EvalError Float) (Jacobian Float)} {e : Error Float}
      (he : r.mapError Error.evaluation = .error e) : ∃ e', e = .evaluation e' := by
    obtain ⟨e', -, rfl⟩ := mapError_eq_error_iff.mp he
    exact ⟨e', rfl⟩
  -- The replaced equations have a Jacobian only if the others have the same one, so the two can
  -- differ in one way: it is missing on the right alone.
  cases hleft : left with
  | ok J =>
    cases heq : right with
    | ok J' =>
      rw [(hright.mp heq).1] at hleft
      exact .inl (congrArg _ hleft.symm)
    | error e =>
      obtain ⟨e', rfl⟩ := hfailure heq
      refine .inr ⟨?_, ⟨J, rfl⟩, e', rfl⟩
      by_contra hvalues
      rw [hright.mpr ⟨hleft, hvalues⟩] at heq
      contradiction
  | error e =>
    obtain ⟨e', rfl⟩ := hfailure hleft
    cases heq : right with
    | ok J' =>
      rw [(hright.mp heq).1] at hleft
      contradiction
    | error e =>
      obtain ⟨e'', rfl⟩ := hfailure heq
      exact .inl (.of_kind_eq rfl)

end Jacobians

section Solutions

/-- A variable that lacks a value keeps the errors from being propagated. -/
theorem LacksValue.propagate_ne_ok (h : LacksValue equations equations' values) {p : Partition}
    {J : Jacobian Float} (hJ : Jacobian.ofEquations equations p values = .ok J)
    {how : Combination} {constants : Option (Point Float)} {t : Table Float} :
    J.propagate how values errors constants ≠ .ok t := by
  intro ht
  obtain ⟨pair, hpair, -, x, hx, hvalue⟩ := h
  obtain ⟨hrows, rfl⟩ := Jacobian.ofEquations_eq_ok_iff.mp hJ
  obtain ⟨-, -, -, hvalues, -⟩ := Jacobian.propagate_eq_ok_iff.mp ht
  apply hvalue
  apply hvalues
  exact (hrows pair.1 (List.of_mem_zip hpair).1).columns x hx

/-- A check does not pass if a variable lacks a value. -/
theorem LacksValue.check_ne_ok (h : LacksValue equations equations' values) :
    Validation.check tolerance equations values errors ≠ .ok () := by
  intro hcheck
  obtain ⟨pair, hpair, -, x, hx, hvalue⟩ := h
  exact hvalue (Validation.resolved_of_check hcheck pair.1 (List.of_mem_zip hpair).1 x hx)

/-- Where the propagated errors differ, the Jacobian of the equations is singular. -/
theorem AreReplaced.propagate_cases (h : AreReplaced equations equations') (p : Partition)
    (how : Combination) (constants : Option (Point Float)) :
    let next (J : Jacobian Float) := J.propagate how values errors constants
    let left := (Jacobian.ofEquations equations p values).mapError Error.evaluation >>= next
    let right := (Jacobian.ofEquations equations' p values).mapError Error.evaluation >>= next
    SameOutcome left right ∨ LacksValue equations equations' values ∧
      (∃ names, left = .error (.singular names)) ∧ ∃ e, right = .error (.evaluation e) := by
  intro next left right
  rcases h.jacobian_cases p with hsame | ⟨hlacks, ⟨J, hJ⟩, e, he⟩
  · exact .inl (hsame.bind fun _ _ => .refl _)
  · have hleft : left = next J := by
      simp only [left, hJ]
      rfl
    have hright : right = .error (.evaluation e) := by
      simp only [right, he]
      rfl
    rw [hleft, hright]
    cases ht : next J with
    | ok t => exact absurd ht (hlacks.propagate_ne_ok (mapError_eq_ok_iff.mp hJ))
    | error e' =>
      rcases Jacobian.eq_of_propagate_eq_error ht with rfl | ⟨e'', rfl⟩
      · exact .inr ⟨hlacks, ⟨_, rfl⟩, _, rfl⟩
      · exact .inl (.of_kind_eq rfl)

/-- Replaced equations are solved alike, unless a variable of one of them lacks a value. -/
theorem AreReplaced.solveUnchecked_cases (h : AreReplaced equations equations') :
    let left := Solver.solveUnchecked equations values errors options
    let right := Solver.solveUnchecked equations' values errors options
    SameOutcome left right ∨ LacksValue equations equations' values ∧
      (∃ names, left = .error (.singular names)) ∧ ∃ e, right = .error (.evaluation e) := by
  unfold Solver.solveUnchecked
  rw [h.partition_eq, ← h.length_eq]
  cases (Partition.ofEquations equations values errors).checkDeterminacy equations.length with
  | error e => exact .inl (.refl _)
  | ok _ => exact h.propagate_cases _ options.combination options.constants

/-- Where the solutions differ, the inputs are not checked and a variable lacks a value. -/
theorem AreReplaced.solve_cases (h : AreReplaced equations equations') :
    let left := Solver.solveEquations tolerance equations values errors options
    let right := Solver.solveEquations tolerance equations' values errors options
    SameOutcome left right ∨ LacksValue equations equations' values ∧ options.check = false ∧
      (∃ names, left = .error (.singular names)) ∧ ∃ e, right = .error (.evaluation e) := by
  intro left right
  have hunchecked := @AreReplaced.solveUnchecked_cases _ _ values errors options h
  simp only [left, right, Solver.solveEquations_eq]
  cases options.check with
  | false =>
    rcases hunchecked with hsame | ⟨hlacks, hsingular, hevaluation⟩
    · exact .inl hsame
    · exact .inr ⟨hlacks, rfl, hsingular, hevaluation⟩
  | true =>
    left
    apply h.sameOutcome_check.bind
    intro _ hcheck
    rcases hunchecked with hsame | ⟨hlacks, -, -⟩
    · exact hsame
    · exact absurd hcheck hlacks.check_ne_ok

end Solutions

end Equations

section Selection

variable {s s' : Solver Float} {combo : Option String}

/-- Both solvers select the same equations, up to twins. -/
theorem Solver.Replaces.select_cases (h : s.Replaces s') (hs : s.Reachable)
    (combo : Option String) :
    (∃ e, s.equations.select combo = .error e ∧ s'.equations.select combo = .error e) ∨
      ∃ equations equations', s.equations.select combo = .ok equations ∧
        s'.equations.select combo = .ok equations' ∧ AreReplaced equations equations' := by
  have hfaithful {equations} (hselect : s.equations.select combo = .ok equations) :
      ∀ eq ∈ equations, ∃ edits, eq.IsFaithful edits := by
    intro eq heq
    exact hs.exists_isFaithful hselect heq
  refine (EquationSet.select_cases h.equations.equations h.equations.combos combo).imp_right ?_
  rintro ⟨equations, equations', hselect, hselect', hreplaces⟩
  exact ⟨_, _, hselect, hselect', (List.forall₂_and_left _ _).mpr ⟨hfaithful hselect, hreplaces⟩⟩

end Selection

namespace Solver

variable {s s' : Solver Float} {values errors : Point Float}

/-- Whether a variable of an active equation that is replaced lacks a value. -/
def LacksValue (s s' : Solver Float) (combo : Option String) (values : Point Float) : Prop :=
  ∃ equations equations', s.equations.select combo = .ok equations ∧
    s'.equations.select combo = .ok equations' ∧ ErrorBudget.LacksValue equations equations' values

/-- Whether two solvers have the same outcomes, except where a variable of a replaced equation lacks
a value. -/
structure AgreesWith (s s' : Solver Float) (values errors : Point Float) : Prop where
  check : ∀ combo, SameOutcome (s.check values errors combo) (s'.check values errors combo)
  jacobian : ∀ combo, SameOutcome (s.jacobian values errors combo)
      (s'.jacobian values errors combo) ∨
    s.LacksValue s' combo values ∧ (∃ J, s.jacobian values errors combo = .ok J) ∧
      ∃ e, s'.jacobian values errors combo = .error (.evaluation e)
  solve : ∀ options, SameOutcome (s.solve values errors options) (s'.solve values errors options) ∨
    s.LacksValue s' options.combo values ∧ options.check = false ∧
      (∃ names, s.solve values errors options = .error (.singular names)) ∧
      ∃ e, s'.solve values errors options = .error (.evaluation e)

/-- Twins have the outcomes of the equations that they replace. Only where a variable of a replaced
equation lacks a value, there can be a Jacobian of the equations and none of the twins, and a solve
without a check can fail for another reason. -/
theorem agreesWith_of_replaces (hs : s.Reachable) (h : s.Replaces s')
    (values errors : Point Float) : s.AgreesWith s' values errors := by
  constructor
  · intro combo
    rw [check_eq, check_eq, h.config]
    rcases h.select_cases hs combo with ⟨e, he, he'⟩ | ⟨equations, equations', hE, hE', hreplaced⟩
    · rw [he, he']
      exact .refl _
    · rw [hE, hE']
      exact hreplaced.sameOutcome_check
  · intro combo
    rw [jacobian_eq, jacobian_eq]
    rcases h.select_cases hs combo with ⟨e, he, he'⟩ | ⟨equations, equations', hE, hE', hreplaced⟩
    · rw [he, he']
      exact .inl (.refl _)
    · simp only [hE, hE', bind, Except.bind, hreplaced.partition_eq]
      rcases hreplaced.jacobian_cases (Partition.ofEquations equations values errors) with
        hsame | ⟨hlacks, hrest⟩
      · exact .inl hsame
      · exact .inr ⟨⟨equations, equations', hE, hE', hlacks⟩, hrest⟩
  · intro options
    rw [solve_eq, solve_eq, h.config]
    rcases h.select_cases hs options.combo with
      ⟨e, he, he'⟩ | ⟨equations, equations', hE, hE', hreplaced⟩
    · rw [he, he']
      exact .inl (.refl _)
    · rw [hE, hE']
      rcases hreplaced.solve_cases with hsame | ⟨hlacks, hrest⟩
      · exact .inl hsame
      · exact .inr ⟨⟨equations, equations', hE, hE', hlacks⟩, hrest⟩

section Runs

/-- A solver with every equation replaced by its twin. -/
def withTwins (s : Solver Float) : Solver Float :=
  { s with equations := { s.equations with
    equations := s.equations.equations.map Equation.twin } }

/-- The twins of symbolic equations replace them. -/
theorem replaces_withTwins (s : Solver Float) : s.Replaces s.withTwins := by
  refine ⟨⟨?_, rfl⟩, rfl⟩
  rw [withTwins, Array.toList_map, List.forall₂_map_right_iff, List.forall₂_same]
  intro eq _
  exact eq.replaces_twin

/-- Two equations of which the second is not linear. -/
theorem agreesWith_of_replaces_product :
    ∃ s : Solver Float, ofTexts ["y = 2*x", "z = x*y"] Config.standard = .ok s ∧
      s.Reachable ∧ s.Replaces s.withTwins ∧
      s.AgreesWith s.withTwins (NameMap.ofEntries [("x", 2), ("y", 4), ("z", 8)])
        (NameMap.ofEntries [("x", 0.1)]) := by
  have hok : (ofTexts ["y = 2*x", "z = x*y"] Config.standard :
      Except (Error Float) (Solver Float)).isOk = true := by decide +kernel
  obtain ⟨s, hs⟩ := exists_eq_ok_of_isOk hok
  exact ⟨s, hs, .ofTexts hs, s.replaces_withTwins,
    agreesWith_of_replaces (.ofTexts hs) s.replaces_withTwins _ _⟩

/-- Where the derivatives are constant, there is a Jacobian without the value of a variable, which
may then be found to be singular. Its twin has none. -/
theorem not_sameOutcome_withTwins :
    ∃ s : Solver Float, ofTexts ["x + 0*y"] Config.standard = .ok s ∧
      s.Reachable ∧ s.Replaces s.withTwins ∧
      ¬SameOutcome
        (s.jacobian (NameMap.ofEntries [("y", 1)]) (NameMap.ofEntries [("x", 0.1)]) none)
        (s.withTwins.jacobian (NameMap.ofEntries [("y", 1)]) (NameMap.ofEntries [("x", 0.1)])
          none) ∧
      ¬SameOutcome
        (s.solve (NameMap.ofEntries [("y", 1)]) (NameMap.ofEntries [("x", 0.1)])
          { check := false })
        (s.withTwins.solve (NameMap.ofEntries [("y", 1)]) (NameMap.ofEntries [("x", 0.1)])
          { check := false }) := by
  let values : Point Float := NameMap.ofEntries [("y", 1)]
  let errors : Point Float := NameMap.ofEntries [("x", 0.1)]
  let options : SolveOptions Float := { check := false }
  have hfailures : (ofTexts ["x + 0*y"] Config.standard).toOption.map (fun s : Solver Float =>
      [failure? (s.jacobian values errors none), failure? (s.withTwins.jacobian values errors none),
        failure? (s.solve values errors options),
        failure? (s.withTwins.solve values errors options)]) =
      some [none, some .evaluation, some .singular, some .evaluation] := by decide +kernel
  cases hs : (ofTexts ["x + 0*y"] Config.standard : Except (Error Float) (Solver Float)) with
  | error e =>
    rw [hs] at hfailures
    contradiction
  | ok s =>
    rw [hs] at hfailures
    have hkinds := Option.some.inj hfailures
    simp only [List.cons.injEq, and_true] at hkinds
    obtain ⟨hJ, hJ', ht, ht'⟩ := hkinds
    refine ⟨s, rfl, .ofTexts hs, s.replaces_withTwins, ?_, ?_⟩
    · intro hsame
      have hfailure := hsame.failure?_eq
      rw [hJ, hJ'] at hfailure
      contradiction
    · intro hsame
      have hfailure := hsame.failure?_eq
      rw [ht, ht'] at hfailure
      contradiction

end Runs

end Solver

end ErrorBudget
