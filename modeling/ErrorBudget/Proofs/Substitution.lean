import ErrorBudget.Double
import ErrorBudget.Proofs.Value

/-!
# Substitution

What a substitution does to the variables of an expression (`Expr.contains_substitute`) and to its
value. To reduce an expression after a substitution is to reduce it where each replaced variable has
the value of its replacement (`Expr.real_substitute`): all replacements are reduced at the given
point, so they are put in at once, and none is looked into again.

The one place where the reduction looks at an expression and not only at its value is an exponent,
since a literal is applied by squaring. So a variable that is an exponent by itself must not become
a literal.
-/

set_option autoImplicit false

namespace ErrorBudget

namespace Expr

section Variables

variable {α : Type} {names names' : NameMap (Expr α)} {e : Expr α} {x : String}

/-- Two substitutions give the same expression exactly if they replace its variables by the same. -/
theorem substitute_eq_iff :
    e.substitute names = e.substitute names' ↔
      ∀ x, e.contains x = true → names.getD x (symbol x) = names'.getD x (symbol x) := by
  induction e with
  | number _ | constant _ => simp [substitute, contains]
  | symbol name => simp [substitute, contains]
  | call f u ih => simpa [substitute, contains] using ih
  | add u v ihu ihv | sub u v ihu ihv | mul u v ihu ihv | div u v ihu ihv | pow u v ihu ihv =>
    simp [substitute, contains, ihu, ihv, or_imp, forall_and]

/-- The variables of an expression after a substitution come from what its variables become. -/
theorem contains_substitute :
    (e.substitute names).contains x = true ↔
      ∃ y, e.contains y = true ∧ (names.getD y (symbol y)).contains x = true := by
  induction e with
  | number _ | constant _ => simp [substitute, contains]
  | symbol name => simp [substitute, contains]
  | call f u ih => simpa [substitute, contains] using ih
  | add u v ihu ihv | sub u v ihu ihv | mul u v ihu ihv | div u v ihu ihv | pow u v ihu ihv =>
    simp [substitute, contains, ihu, ihv, or_and_right, exists_or]

/-- What a variable becomes contains itself if it is not replaced, and otherwise the variables of
its replacement. -/
theorem contains_getD_symbol {y : String} : (names.getD y (symbol y)).contains x = true ↔
    y = x ∧ y ∉ names ∨ ∃ r, names[y]? = some r ∧ r.contains x = true := by
  rw [Std.ExtTreeMap.getD_eq_getD_getElem?, ← NameMap.getElem?_eq_none_iff]
  cases names[y]? <;> simp [contains]

/-- The variables after a substitution are those that are not replaced and those of the replacements
of the others. -/
theorem mem_vars_substitute : x ∈ (e.substitute names).vars ↔
    (x ∈ e.vars ∧ x ∉ names) ∨ ∃ y r, y ∈ e.vars ∧ names[y]? = some r ∧ x ∈ r.vars := by
  simp only [← contains_iff_mem_vars, contains_substitute, contains_getD_symbol, and_or_left,
    exists_or, exists_and_left]
  constructor
  · rintro (⟨y, hy, rfl, hnot⟩ | h)
    · exact .inl ⟨hy, hnot⟩
    · exact .inr h
  · rintro (⟨hx, hnot⟩ | h)
    · exact .inl ⟨x, hx, rfl, hnot⟩
    · exact .inr h

/-- What the leaves of an expression and of all replacements have in common, the leaves have after
the substitution. -/
theorem LeavesIn.substitute {S : String → Prop} {C : Constant → Prop} (h : e.LeavesIn S C)
    (hnames : ∀ (y : String) (r : Expr α), names[y]? = some r → r.LeavesIn S C) :
    (e.substitute names).LeavesIn S C := by
  induction e with
  | number _ | constant _ => exact h
  | symbol name =>
    rw [Expr.substitute, Std.ExtTreeMap.getD_eq_getD_getElem?]
    cases hname : names[name]? with
    | none => exact h
    | some r => exact hnames name r hname
  | call f u ih => exact ih h
  | add u v ihu ihv | sub u v ihu ihv | mul u v ihu ihv | div u v ihu ihv | pow u v ihu ihv =>
    exact ⟨ihu h.1, ihv h.2⟩

end Variables

section Exponents

variable {α : Type}

/-- Whether a variable by itself is an exponent in an expression. -/
def IsExponent (x : String) : Expr α → Prop
  | number _ | symbol _ | constant _ => False
  | call _ u => u.IsExponent x
  | add u v | sub u v | mul u v | div u v => u.IsExponent x ∨ v.IsExponent x
  | pow u v => v = symbol x ∨ u.IsExponent x ∨ v.IsExponent x

/-- An expression that is no literal becomes one only if it is a variable that is replaced by it. -/
theorem number?_substitute {names : NameMap (Expr α)} {v : Expr α} (hv : v.number? = none)
    (hnames : ∀ x c, v = symbol x → names[x]? ≠ some (number c)) :
    (v.substitute names).number? = none := by
  cases v with
  | number c => simp [number?] at hv
  | symbol x =>
    rw [substitute, Std.ExtTreeMap.getD_eq_getD_getElem?]
    cases hx : names[x]? with
    | none => rfl
    | some r =>
      cases r with
      | number c => exact absurd hx (hnames x c rfl)
      | _ => rfl
  | _ => rfl

end Exponents

end Expr

/-- The point that gives each replaced variable the value of its replacement, and leaves the number
of every other variable. -/
def Point.replaced {α : Type} [Scalar α] (p : Point α) (names : NameMap (Expr α)) : Point α :=
  p ∪ names.filterMap fun _ r => (r.real p).toOption

namespace Expr

variable {α : Type} [Scalar α] {p : Point α} {names : NameMap (Expr α)} {x : String}

/-- At the replaced point a variable has the value of its replacement, or its own if it has none. -/
theorem getElem?_replaced : (p.replaced names)[x]? =
    (names[x]?.bind fun r => (r.real p).toOption).or p[x]? := by
  rw [Point.replaced, Std.ExtTreeMap.getElem?_union, Std.ExtTreeMap.getElem?_filterMap']

/-- A variable becomes what has the value that the variable has at the other point. -/
theorem real_getD_symbol (h : ∀ r, names[x]? = some r → ∃ y, r.real p = .ok y) :
    (names.getD x (symbol x)).real p = (symbol x).real (p.replaced names) := by
  rw [Std.ExtTreeMap.getD_eq_getD_getElem?, real, getElem?_replaced]
  cases hx : names[x]? with
  | none => rfl
  | some r =>
    obtain ⟨y, hy⟩ := h r hx
    simp [hy, Except.toOption]

/-- Reduction after a substitution is reduction at the other point. -/
theorem real_substitute_eq {e : Expr α}
    (hvalues : ∀ x r, e.contains x = true → names[x]? = some r → ∃ y, r.real p = .ok y)
    (hexponents : ∀ x c, e.IsExponent x → names[x]? ≠ some (number c)) :
    (e.substitute names).real p = e.real (p.replaced names) := by
  induction e with
  | number c | constant c => rfl
  | symbol x => exact real_getD_symbol fun r => hvalues x r (by simp [contains])
  | call f u ih => rw [substitute, real, real, ih hvalues hexponents]
  | add u v ihu ihv | sub u v ihu ihv | mul u v ihu ihv | div u v ihu ihv =>
    have hu := ihu (fun x r hx => hvalues x r (by simp [contains, hx]))
      fun x c hx => hexponents x c (.inl hx)
    have hv := ihv (fun x r hx => hvalues x r (by simp [contains, hx]))
      fun x c hx => hexponents x c (.inr hx)
    rw [substitute, real, real, hu, hv]
  | pow u v ihu ihv =>
    have hu := ihu (fun x r hx => hvalues x r (by simp [contains, hx]))
      fun x c hx => hexponents x c (.inr (.inl hx))
    have hv := ihv (fun x r hx => hvalues x r (by simp [contains, hx]))
      fun x c hx => hexponents x c (.inr (.inr hx))
    cases hliteral : v.number? with
    | some n =>
      cases v with
      | number c => rw [substitute, substitute, real, real, hu]
      | _ => simp [number?] at hliteral
    | none =>
      have hkept := number?_substitute hliteral fun x c hx => hexponents x c (.inl hx)
      rw [substitute, real_pow hkept, real_pow hliteral, hu, hv]

/-- Where the replacements have values, and no variable that is an exponent by itself becomes a
literal, reduction after a substitution is reduction at the point of these values, whether it
succeeds or fails. The variables are those that are not replaced and those of the replacements. -/
theorem real_substitute {e : Expr α}
    (hvalues : ∀ x r, x ∈ e.vars → names[x]? = some r → ∃ y, r.real p = .ok y)
    (hexponents : ∀ x c, e.IsExponent x → names[x]? ≠ some (number c)) :
    (e.substitute names).real p = e.real (p.replaced names) ∧
      ∀ x, x ∈ (e.substitute names).vars ↔
        (x ∈ e.vars ∧ x ∉ names) ∨ ∃ y r, y ∈ e.vars ∧ names[y]? = some r ∧ x ∈ r.vars := by
  refine ⟨real_substitute_eq (fun x r hx => ?_) hexponents, fun x => mem_vars_substitute⟩
  exact hvalues x r ((contains_iff_mem_vars x e).mp hx)

/-- In `x - y^n / z` the variables `x` and `y` are exchanged, `n` becomes a sum with itself, and `z`
has no value at all. -/
theorem real_substitute_exchange :
    let e : Expr Float :=
      sub (symbol "x") (div (pow (symbol "y") (symbol "n")) (symbol "z"))
    let names : NameMap (Expr Float) := NameMap.ofEntries
      [("x", symbol "y"), ("y", symbol "x"), ("n", add (symbol "n") (number 1))]
    let p : Point Float := NameMap.ofEntries [("x", 2), ("y", 3), ("n", 1)]
    (∀ x r, x ∈ e.vars → names[x]? = some r → ∃ y, r.real p = .ok y) ∧
    (∀ x c, e.IsExponent x → names[x]? ≠ some (number c)) ∧
    (e.substitute names).real p = e.real (p.replaced names) ∧
    ∀ x, x ∈ (e.substitute names).vars ↔
      (x ∈ e.vars ∧ x ∉ names) ∨ ∃ y r, y ∈ e.vars ∧ names[y]? = some r ∧ x ∈ r.vars := by
  intro e names p
  have hvalues : ∀ x r, x ∈ e.vars → names[x]? = some r → ∃ y, r.real p = .ok y := by
    have hok : ∀ x ∈ e.vars.toList, names[x]?.all (fun r => (r.real p).isOk) = true := by
      decide +kernel
    intro x r hx hr
    have hr' := hok x (Std.ExtTreeSet.mem_toList.mpr hx)
    rw [hr] at hr'
    exact exists_eq_ok_of_isOk hr'
  have hexponents : ∀ x c, e.IsExponent x → names[x]? ≠ some (number c) := by
    have hsum : names["n"]?.all (fun r => r.number?.isNone) = true := by decide +kernel
    intro x c hx hc
    obtain rfl : "n" = x := by simpa [e, IsExponent] using hx
    simp [hc, number?] at hsum
  exact ⟨hvalues, hexponents, real_substitute hvalues hexponents⟩

end Expr

end ErrorBudget
