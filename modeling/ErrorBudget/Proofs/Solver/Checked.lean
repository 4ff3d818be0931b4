import ErrorBudget.Error.Kind
import ErrorBudget.Proofs.Derivative.Leaves
import ErrorBudget.Proofs.Solver.Completeness
import ErrorBudget.Proofs.Solver.Steps

/-!
# Solving after a passed check

A check that passes leaves two ways for a solve to fail: the unknown errors are not determined by
the equations, or some derivative is no real number (`Solver.solve_of_check`).

That an equation has a residual at all shows that every variable has a value and that no constant
without a real value occurs. A derivative has no other leaves, so the only thing that it can lack is
a defined result (`Equation.partialAt_of_evaluate`). All variables then have columns and values, and
determinacy is part of the check, so no later guard refuses the inputs.
-/

set_option autoImplicit false

namespace ErrorBudget

variable {α : Type} [Scalar α]

/-- Where its leaves resolve, an expression fails to have a value only by an undefined result. -/
theorem Expr.evaluate_of_resolves {e : Expr α} {p : Point α} (h : e.Resolves p) :
    e.evaluate p = .ok (e.denote p) ∨ e.evaluate p = .error ⟨.expression e, .notReal⟩ := by
  have hreal : e.real p = .ok (e.denote p) := real_eq_ok_iff.mpr ⟨h, rfl⟩
  have hvalue : e.value p = defined (e.denote p) := by
    rw [value, h.unresolved_eq_nil]
    dsimp only
    rw [hreal]
    rfl
  rw [evaluate, hvalue, defined]
  split
  · exact .inr rfl
  · exact .inl rfl

namespace Equation

/-- What a function returns is its value, unless it is undefined. -/
theorem definedAs_cases (label : String) (x : α) :
    definedAs label x = .ok x ∨ definedAs label x = .error ⟨.label label, .notReal⟩ := by
  unfold definedAs Expr.defined
  split
  · exact .inr rfl
  · exact .inl rfl

/-- Where an equation has a residual, each derivative has a value unless it is undefined. -/
theorem partialAt_of_evaluate {edits : List (Edit α)} {eq : Equation α} {p : Point α} {y : α}
    (hfaithful : eq.IsFaithful edits) (h : eq.evaluate p = .ok y) (x : String) :
    (∃ d, eq.partialAt x p = .ok d) ∨ ∃ u, eq.partialAt x p = .error ⟨u, .notReal⟩ := by
  by_cases hx : x ∈ eq.vars
  · have hresolved := requireResolved_eq_ok_iff.mpr (resolved_of_evaluate h)
    cases eq with
    | symbolic label residual partials =>
      obtain ⟨-, -, hresidual⟩ := bind_eq_ok_iff.mp h
      have hleaves : residual.Resolves p := (Expr.evaluate_eq_ok_iff.mp hresidual).1
      obtain ⟨d, hd⟩ := NameMap.exists_getElem?_iff.mpr (Std.ExtTreeMap.mem_keys.mp hx)
      obtain rfl := hfaithful.values x d hd
      simp only [partialAt, hd]
      rcases Expr.evaluate_of_resolves (hleaves.derive x) with hok | herror
      · exact .inl ⟨_, hok⟩
      · exact .inr ⟨_, herror⟩
    | native label residual partials =>
      obtain ⟨f, hf⟩ := NameMap.exists_getElem?_iff.mpr (Std.ExtTreeMap.mem_keys.mp hx)
      simp only [partialAt, hf, hresolved]
      rcases definedAs_cases s!"d({label})/d{x}" (f p) with hok | herror
      · exact .inl ⟨_, hok⟩
      · exact .inr ⟨_, herror⟩
  · exact .inl ⟨0, partialAt_of_not_mem hx⟩

end Equation

namespace Jacobian

/-- A square Jacobian whose columns have values propagates errors unless it is singular. -/
theorem propagate_of_isSquare {J : Jacobian α} (square : J.IsSquare) {values : Point α}
    (hvalues : ∀ x ∈ J.columns, x ∈ values) (how : Combination) (errors : Point α)
    (constants : Option (Point α)) :
    (∃ t, J.propagate how values errors constants = .ok t) ∨
      J.propagate how values errors constants = .error (.singular J.unknown) := by
  cases hinverse : J.inverse? square with
  | none => exact .inr (propagate_of_inverse?_eq_none hinverse)
  | some inverse =>
    exact .inl ⟨_, propagate_eq_ok_iff.mpr ⟨square, inverse, hinverse, hvalues, rfl⟩⟩

end Jacobian

namespace Solver

variable {s : Solver α} {values errors : Point α} {options : SolveOptions α}

/-- What follows a passed check succeeds unless a derivative is undefined or the unknown errors are
not determined. -/
theorem solveEquations_of_check {tolerance : α} {equations : List (Equation α)}
    (hfaithful : ∀ eq ∈ equations, ∃ edits, eq.IsFaithful edits)
    (h : Validation.check tolerance equations values errors = .ok ()) :
    (∃ t, solveEquations tolerance equations values errors options = .ok t) ∨
      (∃ names, solveEquations tolerance equations values errors options =
        .error (.singular names)) ∨
      ∃ eq ∈ equations, ∃ x ∈ eq.vars, ∃ u, eq.partialAt x values = .error ⟨u, .notReal⟩ ∧
        solveEquations tolerance equations values errors options =
          .error (.evaluation ⟨u, .notReal⟩) := by
  obtain ⟨-, hsatisfied, hdetermined⟩ := Validation.check_eq_ok_iff.mp h
  set p := Partition.ofEquations equations values errors
  have hresolved := Validation.resolved_of_check h
  have hcolumns : ∀ eq ∈ equations, ∀ x ∈ eq.vars, x ∈ p.columns := by
    intro eq heq x hx
    exact Partition.mem_columns_of_mem_values heq hx (hresolved eq heq x hx)
  rw [solveEquations_eq_of_check h]
  -- Every variable has a value and so a column; what is left to fail is a derivative.
  cases hJ : Jacobian.ofEquations equations p values with
  | error e =>
    right
    right
    obtain ⟨eq, heq, hrow⟩ := Jacobian.exists_of_ofEquations_eq_error hJ
    rcases Jacobian.rowOf_eq_error hrow with ⟨⟨x, hx, hmissing⟩, -⟩ | ⟨-, x, hx, hpartial⟩
    · exact absurd (hcolumns eq heq x hx) hmissing
    · obtain ⟨residual, hresidual, -⟩ := hsatisfied eq heq
      obtain ⟨edits, hedits⟩ := hfaithful eq heq
      rcases Equation.partialAt_of_evaluate hedits hresidual x with ⟨d, hok⟩ | ⟨u, herror⟩
      · rw [hpartial] at hok
        contradiction
      · obtain rfl := Except.error.inj (hpartial.symm.trans herror)
        exact ⟨eq, heq, x, hx, u, herror, rfl⟩
  | ok J =>
    obtain ⟨hequations, hunknown, hknown, -⟩ := Jacobian.of_ofEquations hJ
    have square : J.IsSquare := by
      rw [Jacobian.IsSquare, hequations, hunknown]
      exact hdetermined.symm
    have hvalues : ∀ x ∈ J.columns, x ∈ values := by
      intro x hx
      have hcolumn : x ∈ p.columns := by
        rwa [Jacobian.columns, hunknown, hknown] at hx
      obtain ⟨eq, heq, hxeq⟩ := EquationSet.mem_varsOf.mp (Partition.mem_of_mem_columns hcolumn)
      exact hresolved eq heq x hxeq
    rcases Jacobian.propagate_of_isSquare square hvalues options.combination errors
      options.constants with hok | hsingular
    · exact .inl hok
    · exact .inr (.inl ⟨J.unknown, hsingular⟩)

/-- After a passed check a solve succeeds, or the Jacobian is singular, or a derivative of an active
equation is not a real number. -/
theorem solve_of_check (hs : s.Reachable) (h : s.check values errors options.combo = .ok ()) :
    (∃ t, s.solve values errors options = .ok t) ∨
      (∃ names, s.solve values errors options = .error (.singular names)) ∨
      ∃ equations, s.equations.select options.combo = .ok equations ∧
        ∃ eq ∈ equations, ∃ x ∈ eq.vars, ∃ e, eq.partialAt x values = .error e ∧
          e.fault.message = "result is not a real number" ∧
          s.solve values errors options = .error (.evaluation e) := by
  rw [check_eq] at h
  obtain ⟨equations, hselect, hcheck⟩ := bind_eq_ok_iff.mp h
  rw [solve_eq_of_select hselect]
  rcases solveEquations_of_check (fun eq heq => hs.exists_isFaithful hselect heq) hcheck with
    hok | hsingular | ⟨eq, heq, x, hx, u, hpartial, hfails⟩
  · exact .inl hok
  · exact .inr (.inl hsingular)
  · exact .inr (.inr ⟨equations, hselect, eq, heq, x, hx, _, hpartial, rfl, hfails⟩)

/-- At zero the equation `y = 1/(1/x)` is satisfied, although its derivative is undefined. -/
theorem solve_of_check_reciprocal :
    ∃ s : Solver Float, ofTexts ["y = 1/(1/x)"] Config.standard = .ok s ∧ s.Reachable ∧
      s.check (NameMap.ofEntries [("x", 0), ("y", 0)]) (NameMap.ofEntries [("x", 0.1)]) none =
        .ok () ∧
      ∃ equations, s.equations.select none = .ok equations ∧
        ∃ eq ∈ equations, ∃ x ∈ eq.vars, ∃ e,
          eq.partialAt x (NameMap.ofEntries [("x", 0), ("y", 0)]) = .error e ∧
            e.fault.message = "result is not a real number" ∧
            s.solve (NameMap.ofEntries [("x", 0), ("y", 0)]) (NameMap.ofEntries [("x", 0.1)]) {} =
              .error (.evaluation e) := by
  have hcheck : (ofTexts ["y = 1/(1/x)"] Config.standard >>= fun s : Solver Float =>
      s.check (NameMap.ofEntries [("x", 0), ("y", 0)])
        (NameMap.ofEntries [("x", 0.1)]) none).isOk = true := by decide +kernel
  have hfails : (match ofTexts ["y = 1/(1/x)"] Config.standard >>= fun s : Solver Float =>
      s.solve (NameMap.ofEntries [("x", 0), ("y", 0)]) (NameMap.ofEntries [("x", 0.1)]) {} with
      | .ok _ => false
      | .error e => e.kind == .evaluation) = true := by decide +kernel
  obtain ⟨u, hok⟩ := exists_eq_ok_of_isOk hcheck
  obtain ⟨s, hs, hpassed⟩ := bind_eq_ok_iff.mp hok
  rw [hs] at hfails
  refine ⟨s, hs, .ofTexts hs, hpassed, ?_⟩
  rcases @solve_of_check Float _ s _ _ {} (.ofTexts hs) hpassed with ⟨t, ht⟩ | ⟨names, hnames⟩ | h
  · simp [bind, Except.bind, ht] at hfails
  · simp [bind, Except.bind, hnames, Error.kind] at hfails
  · exact h

end Solver

end ErrorBudget
