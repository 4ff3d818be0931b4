import ErrorBudget.Double
import ErrorBudget.Proofs.EquationSet.Invariant
import ErrorBudget.Proofs.Jacobian
import ErrorBudget.Proofs.Value

/-!
# Equations and their twins

The twin of an expression-backed equation is given by functions that do what the expression and its
derivatives do; where these have no value, the functions return an undefined number. The two have
the same residual at every point (`Equation.Replaces.evaluate_eq_ok_iff`). Their derivatives differ
in one respect only: those of the twin ask for a value of every variable, also of one that the
derivative does not contain (`Equation.Replaces.partialAt_eq_ok_iff`).
-/

set_option autoImplicit false

namespace ErrorBudget

/-- The result of a step, undefined if it fails. -/
def orNaN {ε : Type} : Except ε Float → Float
  | .ok y => y
  | .error _ => Scalar.nan

/-- Whether functions do what an expression and its derivatives do. -/
structure Native.IsTwin (n : Native Float) (e : Expr Float) : Prop where
  label : n.label = e.print
  vars : n.vars = e.vars
  residual : ∀ p, n.residual p = orNaN (e.evaluate p)
  partials : ∀ (x : String) (f : Point Float → Float), n.partials[x]? = some f →
    ∀ p, f p = orNaN ((e.derive x).evaluate p)

/-- The functions that do what an expression and its derivatives do. -/
def Native.ofExpr (e : Expr Float) : Native Float where
  label := e.print
  vars := e.vars
  residual p := orNaN (e.evaluate p)
  partials := NameMap.ofEntries
    (e.vars.toList.map fun x => (x, fun p => orNaN ((e.derive x).evaluate p)))

namespace Equation

/-- Whether an equation is left as it is or replaced by its twin. -/
inductive Replaces : Equation Float → Equation Float → Prop
  | kept {eq} : Replaces eq eq
  | twin {label e partials n eq'} (hn : n.IsTwin e) (h : ofNative n = .ok eq') :
      Replaces (symbolic label e partials) eq'

/-- An equation with its twin in its place, if its residual is an expression. -/
def twin : Equation Float → Equation Float
  | symbolic _ e _ =>
    .native (Native.ofExpr e).label (Native.ofExpr e).residual (Native.ofExpr e).partials
  | native label residual partials => native label residual partials

section Values

variable {ε : Type} {r : Except ε Float} {y : Float}

/-- What is undefined where a step fails is refused there. -/
theorem definedAs_orNaN (label : String) (h : ∀ y, r = .ok y → Scalar.isNaN y = false) :
    definedAs label (orNaN r) = .ok y ↔ r = .ok y := by
  have hnan : Scalar.isNaN (Scalar.nan : Float) = true := rfl
  cases r with
  | error e => simp [orNaN, definedAs, Expr.defined, hnan, Except.mapError]
  | ok a => simp [orNaN, definedAs, Expr.defined, h a rfl, Except.mapError]

/-- What a closure returns for an expression is its value if there is one, and undefined
otherwise. -/
theorem definedAs_orNaN_evaluate (label : String) (e : Expr Float) (p : Point Float) :
    definedAs label (orNaN (e.evaluate p)) = .ok y ↔ e.evaluate p = .ok y := by
  apply definedAs_orNaN
  intro y hy
  exact (Expr.evaluate_eq_ok_iff.mp hy).2.2

end Values

section Parts

variable {α : Type} [Scalar α] {p : Point α} {label x : String} {y : α}

/-- A symbolic equation has a value where its variables are resolved and its expression has one. -/
theorem evaluate_symbolic {e : Expr α} {partials : NameMap (Expr α)} :
    (symbolic label e partials).evaluate p = .ok y ↔
      (∀ z ∈ (symbolic label e partials).vars, z ∈ p) ∧ e.evaluate p = .ok y := by
  rw [← requireResolved_eq_ok_iff, evaluate, bind_eq_ok_iff]
  simp only [Unique.exists_iff, PUnit.default_eq_unit]

/-- A native equation has a value where its variables are resolved and its function is defined. -/
theorem evaluate_native {residual : Point α → α} {partials : NameMap (Point α → α)} :
    (native label residual partials).evaluate p = .ok y ↔
      (∀ z ∈ (native label residual partials).vars, z ∈ p) ∧
        definedAs label (residual p) = .ok y := by
  rw [← requireResolved_eq_ok_iff, evaluate, bind_eq_ok_iff]
  simp only [Unique.exists_iff, PUnit.default_eq_unit]

/-- A derivative of a native equation has a value where the variables are resolved and the function
of this derivative is defined. -/
theorem partialAt_native {residual : Point α → α} {partials : NameMap (Point α → α)}
    {f : Point α → α} (hf : partials[x]? = some f) :
    (native label residual partials).partialAt x p = .ok y ↔
      (∀ z ∈ (native label residual partials).vars, z ∈ p) ∧
        definedAs s!"d({label})/d{x}" (f p) = .ok y := by
  rw [← requireResolved_eq_ok_iff, partialAt, hf]
  simp only [bind_eq_ok_iff, Unique.exists_iff, PUnit.default_eq_unit]

end Parts

namespace Replaces

variable {eq eq' : Equation Float} {edits : List (Edit Float)} {p : Point Float} {x : String}
  {y : Float}

/-- A replaced equation has the same variables. -/
theorem vars_eq (h : Replaces eq eq') (hfaithful : eq.IsFaithful edits) : eq'.vars = eq.vars := by
  cases h with
  | kept => rfl
  | twin hn hnative =>
    obtain ⟨hcomplete, rfl⟩ := ofNative_eq_ok_iff.mp hnative
    apply NameMap.keys_eq_of_mem_iff
    intro x
    rw [hcomplete x, hn.vars, hfaithful.keys x]

/-- An equation and its twin have the same residual. -/
theorem evaluate_eq_ok_iff (h : Replaces eq eq') (hfaithful : eq.IsFaithful edits) :
    eq'.evaluate p = .ok y ↔ eq.evaluate p = .ok y := by
  have hvars := h.vars_eq hfaithful
  cases h with
  | kept => rfl
  | twin hn hnative =>
    obtain ⟨-, rfl⟩ := ofNative_eq_ok_iff.mp hnative
    rw [evaluate_native, evaluate_symbolic, hvars, hn.residual, definedAs_orNaN_evaluate]

/-- A twin has the derivatives of the equation where all its variables have values. -/
theorem partialAt_eq_ok_iff (h : Replaces eq eq') (hfaithful : eq.IsFaithful edits)
    (hx : x ∈ eq.vars) : eq'.partialAt x p = .ok y ↔
      eq.partialAt x p = .ok y ∧ (eq'.isNative = eq.isNative ∨ ∀ z ∈ eq.vars, z ∈ p) := by
  have hvars := h.vars_eq hfaithful
  cases h with
  | kept => simp
  | @twin label e partials n _ hn hnative =>
    obtain ⟨-, rfl⟩ := ofNative_eq_ok_iff.mp hnative
    obtain ⟨f, hf⟩ := NameMap.exists_getElem?_iff.mpr (Std.ExtTreeMap.mem_keys.mp (hvars ▸ hx))
    obtain ⟨d, hd⟩ := NameMap.exists_getElem?_iff.mpr (Std.ExtTreeMap.mem_keys.mp hx)
    obtain rfl := hfaithful.values x d hd
    rw [partialAt_native hf, hn.partials x f hf p, definedAs_orNaN_evaluate, hvars]
    simp only [partialAt, hd, isNative, Bool.true_eq_false, false_or]
    exact and_comm

/-- A twin has a row where the equation has one and its own variables have values. -/
theorem hasRow_iff (h : Replaces eq eq') (hfaithful : eq.IsFaithful edits)
    {columns : List String} : eq'.HasRow columns p ↔
      eq.HasRow columns p ∧ (eq'.isNative = eq.isNative ∨ ∀ z ∈ eq.vars, z ∈ p) := by
  have hvars := h.vars_eq hfaithful
  constructor
  · rintro ⟨hcolumns, hslopes⟩
    rw [hvars] at hcolumns hslopes
    refine ⟨⟨hcolumns, ?_⟩, ?_⟩
    · intro x hx
      obtain ⟨d, hd⟩ := hslopes x hx
      exact ⟨d, ((h.partialAt_eq_ok_iff hfaithful hx).mp hd).1⟩
    · by_contra hnot
      apply hnot
      right
      intro z hz
      obtain ⟨d, hd⟩ := hslopes z hz
      exact ((h.partialAt_eq_ok_iff hfaithful hz).mp hd).2.resolve_left
        (fun hnative => hnot (.inl hnative)) z hz
  · rintro ⟨⟨hcolumns, hslopes⟩, hcondition⟩
    refine ⟨hvars ▸ hcolumns, ?_⟩
    intro x hx
    rw [hvars] at hx
    obtain ⟨d, hd⟩ := hslopes x hx
    exact ⟨d, (h.partialAt_eq_ok_iff hfaithful hx).mpr ⟨hd, hcondition⟩⟩

/-- A replaced equation has the same row of derivatives. -/
theorem slopes_eq (h : Replaces eq eq') (hfaithful : eq.IsFaithful edits) {columns : List String}
    (hrow : eq'.HasRow columns p) : eq'.slopes p = eq.slopes p := by
  have hvars := h.vars_eq hfaithful
  unfold slopes
  rw [hvars]
  apply List.foldl_ext
  intro row x hx
  obtain ⟨d, hd⟩ := hrow.slopes x (hvars ▸ hx)
  have hd' := ((h.partialAt_eq_ok_iff hfaithful hx).mp hd).1
  rw [slope_of_eq_ok hd, slope_of_eq_ok hd']

end Replaces

section Existence

/-- The native equation of an expression is its twin. -/
theorem isTwin_ofExpr (e : Expr Float) : (Native.ofExpr e).IsTwin e := by
  refine ⟨rfl, rfl, fun _ => rfl, ?_⟩
  intro x f hf p
  rw [NameMap.eq_of_getElem?_ofEntries_map _ hf]

/-- Every equation can be replaced by its twin. -/
theorem replaces_twin (eq : Equation Float) : Replaces eq eq.twin := by
  cases eq with
  | symbolic label e partials =>
    refine .twin (isTwin_ofExpr e) (ofNative_eq_ok_iff.mpr ⟨?_, rfl⟩)
    intro x
    exact NameMap.mem_ofEntries_map _
  | native label residual partials => exact .kept

end Existence

end Equation

end ErrorBudget
