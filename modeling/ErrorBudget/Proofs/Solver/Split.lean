import ErrorBudget.Proofs.Derivative.Leaves
import ErrorBudget.Proofs.Solver.Deviations

/-!
# Systems in two parts

A system whose first part does not contain the variables that the second part determines. Each part
is solved on its own, where the second takes the errors that the first has found for the variables
it shares with it. Solved as one system, the two parts determine the deviations as well
(`IsSplit.determines`); the deviations of the variables of the first part are the same
(`IsSplit.deviations_first`), and those of the second part are also deviations of the second part
alone (`IsSplit.deviates_second`), which has lost how the shared errors depend on each other.
-/

set_option autoImplicit false

namespace ErrorBudget

namespace Equation

variable {α : Type}

/-- Whether the functions of an equation read nothing but its variables. They are given the whole
point and are to ignore its other keys. -/
def IgnoresExtraKeys : Equation α → Prop
  | symbolic _ _ _ => True
  | native _ residual partials => ∀ p q : Point α, (∀ x ∈ partials, p[x]? = q[x]?) →
      residual p = residual q ∧ ∀ (x : String) (f : Point α → α), partials[x]? = some f → f p = f q

section Agreement

variable [Scalar α] {edits : List (Edit α)} {eq : Equation α} {p q : Point α}
  (h : ∀ y ∈ eq.vars, p[y]? = q[y]?)

include h

omit [Scalar α] in
/-- Points that agree on the variables of an equation leave the same ones unresolved. -/
theorem unresolved_congr : eq.unresolved p = eq.unresolved q := by
  refine List.filter_congr fun x hx => ?_
  rw [decide_eq_decide, NameMap.mem_congr (h x hx)]

omit [Scalar α] in
/-- Points that agree on the variables of an equation resolve it alike. -/
theorem requireResolved_congr : eq.requireResolved p = eq.requireResolved q := by
  rw [requireResolved, requireResolved, unresolved_congr h]

variable (hfaithful : eq.IsFaithful edits) (hkeys : eq.IgnoresExtraKeys)

include hfaithful hkeys

/-- At points that agree on the variables of an equation, its residual is the same, or there is none
for the same reason. -/
theorem evaluate_congr : eq.evaluate p = eq.evaluate q := by
  unfold evaluate
  rw [requireResolved_congr h]
  cases eq with
  | symbolic label residual partials =>
    have hvalue : residual.evaluate p = residual.evaluate q := by
      refine Expr.evaluate_congr fun y hy => h y ?_
      have hvar := (Expr.contains_iff_mem_vars y residual).mp hy
      exact Std.ExtTreeMap.mem_keys.mpr ((hfaithful.keys y).mpr hvar)
    simp only [hvalue]
  | native label residual partials =>
    have hresult := (hkeys p q fun y hy => h y (Std.ExtTreeMap.mem_keys.mpr hy)).1
    simp only [hresult]

/-- The same holds of its derivatives. -/
theorem partialAt_congr (x : String) : eq.partialAt x p = eq.partialAt x q := by
  cases eq with
  | symbolic label residual partials =>
    cases he : partials[x]? with
    | none => simp only [partialAt, he]
    | some e =>
      obtain rfl := hfaithful.values x e he
      have hvalue : (residual.derive x).evaluate p = (residual.derive x).evaluate q := by
        refine Expr.evaluate_congr fun y hy => h y ?_
        have hvar :=
          (Expr.contains_iff_mem_vars y residual).mp (Expr.contains_of_contains_derive hy)
        exact Std.ExtTreeMap.mem_keys.mpr ((hfaithful.keys y).mpr hvar)
      simp only [partialAt, he, hvalue]
  | native label residual partials =>
    cases hf : partials[x]? with
    | none => simp only [partialAt, hf]
    | some f =>
      have hresult := (hkeys p q fun y hy => h y (Std.ExtTreeMap.mem_keys.mpr hy)).2 x f hf
      have hresolved : (native label residual partials).requireResolved p =
          (native label residual partials).requireResolved q := requireResolved_congr h
      simp only [partialAt, hf, hresult, hresolved]

/-- The slopes of an equation are the same at both points. -/
theorem slope_congr (x : String) : eq.slope p x = eq.slope q x := by
  rw [slope, slope, partialAt_congr h hfaithful hkeys x]

end Agreement

/-- Deviations that agree on the variables without an error shift an equation equally. -/
theorem shift_congr {eq : Equation ℝ} {values errors : Point ℝ} {du dv : String → ℝ}
    (h : ∀ x ∈ eq.vars, x ∉ errors → du x = dv x) :
    eq.shift values errors du = eq.shift values errors dv := by
  apply Finset.sum_congr rfl
  intro x hx
  obtain ⟨hvar, herror⟩ := Finset.mem_filter.mp hx
  rw [h x (List.mem_toFinset.mp hvar) herror]

/-- Opposite deviations shift an equation in the opposite direction. -/
theorem shift_neg (eq : Equation ℝ) (values errors : Point ℝ) (du : String → ℝ) :
    (eq.shift values errors fun x => -du x) = -eq.shift values errors du := by
  simp [shift]

end Equation

namespace Solver

/-- How a system is split into two parts with their own inputs. The variables that the first part
determines and the second part contains are `linked`: the second part takes their errors from the
first. -/
structure IsSplit {α : Type} (first second : List (Equation α)) (values₁ values₂ : Point α)
    (errors₁ errors₂ : Point α) (linked : List String) : Prop where
  /-- The inputs of a part name only variables of its equations. -/
  own_values₁ : ∀ x ∈ values₁, ∃ eq ∈ first, x ∈ eq.vars
  own_values₂ : ∀ x ∈ values₂, ∃ eq ∈ second, x ∈ eq.vars
  own_errors₁ : ∀ x ∈ errors₁, ∃ eq ∈ first, x ∈ eq.vars
  own_errors₂ : ∀ x ∈ errors₂, ∃ eq ∈ second, x ∈ eq.vars
  /-- What is given for a variable in both parts agrees. -/
  agree_values : ∀ (x : String) (a b : α), values₁[x]? = some a → values₂[x]? = some b → a = b
  agree_errors : ∀ (x : String) (a b : α), errors₁[x]? = some a → errors₂[x]? = some b → a = b
  /-- What the second part determines does not occur in the first. -/
  triangular : ∀ x ∈ (Partition.ofEquations second values₂ errors₂).unknown, x ∉ linked →
    ∀ eq ∈ first, x ∉ eq.vars
  mem_linked : ∀ x, x ∈ linked ↔ x ∈ (Partition.ofEquations first values₁ errors₁).unknown ∧
    ∃ eq ∈ second, x ∈ eq.vars

/-- The errors that are given for both parts; what is given for a linked variable does not count. -/
def suppliedErrors {α : Type} (errors₁ errors₂ : Point α) (linked : List String) : Point α :=
  errors₁ ∪ errors₂.filter fun x _ => x ∉ linked

/-- A supplied error is one of the second system that is not linked, or else one of the first. -/
theorem getElem?_suppliedErrors {α : Type} {errors₁ errors₂ : Point α} {linked : List String}
    {x : String} : (suppliedErrors errors₁ errors₂ linked)[x]? =
      (if x ∈ linked then none else errors₂[x]?).or errors₁[x]? := by
  rw [suppliedErrors, Std.ExtTreeMap.getElem?_union, Std.ExtTreeMap.getElem?_filter']
  by_cases hx : x ∈ linked
  · simp [hx]
  · cases errors₂[x]? <;> simp [hx]

/-- Two parts that have been solved one after the other: the second determines its deviations with
the greatest deviations `found` of the linked variables as their errors. -/
structure IsSolved (first second : List (Equation ℝ)) (values₁ values₂ errors₁ errors₂ : Point ℝ)
    (linked : List String) (found : String → ℝ) (errors : Point ℝ) : Prop extends
    IsSplit first second values₁ values₂ errors₁ errors₂ linked where
  faithful : ∀ eq ∈ first ++ second, ∃ edits, eq.IsFaithful edits
  ignores : ∀ eq ∈ first ++ second, eq.IgnoresExtraKeys
  determines₁ : Determines first values₁ errors₁
  determines₂ : Determines second values₂ errors
  getElem?_errors : ∀ x, errors[x]? = if x ∈ linked then some (found x) else errors₂[x]?
  greatest : ∀ x ∈ linked,
    IsGreatest {d | ∃ du : String → ℝ, Deviates first values₁ errors₁ du ∧ du x = d} (found x)

namespace IsSolved

variable {first second : List (Equation ℝ)} {values₁ values₂ errors₁ errors₂ errors : Point ℝ}
  {linked : List String} {found : String → ℝ} {eq : Equation ℝ} {x : String} {du : String → ℝ}
  (h : IsSolved first second values₁ values₂ errors₁ errors₂ linked found errors)

include h

section Inputs

/-- The first equations find their own values in the whole system. -/
theorem getElem?_values_first (heq : eq ∈ first) : ∀ x ∈ eq.vars,
    values₁[x]? = (values₁ ∪ values₂)[x]? := by
  intro x hx
  have hmem := h.determines₁.valued eq heq x hx
  exact ((NameMap.getElem?_union_of_agree h.agree_values).1 hmem).symm

/-- The second equations find their own values in the whole system. -/
theorem getElem?_values_second (heq : eq ∈ second) : ∀ x ∈ eq.vars,
    values₂[x]? = (values₁ ∪ values₂)[x]? := by
  intro x hx
  have hmem := h.determines₂.valued eq heq x hx
  exact ((NameMap.getElem?_union_of_agree h.agree_values).2 hmem).symm

/-- The first equations find their own errors in the whole system. -/
theorem getElem?_errors_first (heq : eq ∈ first) (hx : x ∈ eq.vars) :
    (suppliedErrors errors₁ errors₂ linked)[x]? = errors₁[x]? := by
  rw [getElem?_suppliedErrors]
  cases h₁ : errors₁[x]? with
  | some a =>
    cases h₂ : errors₂[x]? with
    | some b => split_ifs <;> simp [h.agree_errors x a b h₁ h₂]
    | none => simp
  | none =>
    split_ifs with hmem
    · rfl
    · cases h₂ : errors₂[x]? with
      | none => rfl
      | some b =>
        -- An error that only the second part has belongs to a linked variable.
        have hsecond : x ∈ errors₂ := NameMap.exists_getElem?_iff.mp ⟨b, h₂⟩
        refine absurd ((h.mem_linked x).mpr ⟨?_, h.own_errors₂ x hsecond⟩) hmem
        exact Partition.mem_unknown_ofEquations.mpr ⟨⟨eq, heq, hx⟩,
          h.determines₁.valued eq heq x hx, NameMap.getElem?_eq_none_iff.mp h₁⟩

/-- The second equations find their own errors in the whole system, except for linked variables. -/
theorem getElem?_errors_second (heq : eq ∈ second) (hx : x ∈ eq.vars) (hfree : x ∉ linked) :
    (suppliedErrors errors₁ errors₂ linked)[x]? = errors[x]? := by
  rw [getElem?_suppliedErrors, h.getElem?_errors, if_neg hfree, if_neg hfree]
  cases h₂ : errors₂[x]? with
  | some b => rfl
  | none =>
    rw [Option.none_or]
    apply NameMap.getElem?_eq_none_iff.mpr
    intro hfirst
    -- The second part determines the variable, so it does not occur in the first.
    obtain ⟨eq', heq', hx'⟩ := h.own_errors₁ x hfirst
    refine h.triangular x ?_ hfree eq' heq' hx'
    exact Partition.mem_unknown_ofEquations.mpr ⟨⟨eq, heq, hx⟩,
      h.determines₂.valued eq heq x hx, NameMap.getElem?_eq_none_iff.mp h₂⟩

/-- A linked variable has an error in the second system, and none in the whole one. -/
theorem not_mem_of_mem_linked (hx : x ∈ linked) :
    x ∉ suppliedErrors errors₁ errors₂ linked ∧ x ∈ errors := by
  have hunknown := (Partition.mem_unknown_ofEquations.mp ((h.mem_linked x).mp hx).1).2.2
  constructor
  · apply NameMap.getElem?_eq_none_iff.mp
    rw [getElem?_suppliedErrors, if_pos hx, Option.none_or]
    exact NameMap.getElem?_eq_none_iff.mpr hunknown
  · apply NameMap.exists_getElem?_iff.mp
    exact ⟨found x, by rw [h.getElem?_errors, if_pos hx]⟩

end Inputs

section Shifts

/-- A slope of a first equation is the same in the whole system. -/
theorem slope_first (heq : eq ∈ first) (x : String) :
    eq.slope (values₁ ∪ values₂) x = eq.slope values₁ x := by
  have hmem : eq ∈ first ++ second := List.mem_append_left _ heq
  obtain ⟨edits, hfaithful⟩ := h.faithful eq hmem
  exact (Equation.slope_congr (h.getElem?_values_first heq) hfaithful (h.ignores eq hmem) x).symm

/-- A slope of a second equation is the same in the whole system. -/
theorem slope_second (heq : eq ∈ second) (x : String) :
    eq.slope (values₁ ∪ values₂) x = eq.slope values₂ x := by
  have hmem : eq ∈ first ++ second := List.mem_append_right _ heq
  obtain ⟨edits, hfaithful⟩ := h.faithful eq hmem
  exact (Equation.slope_congr (h.getElem?_values_second heq) hfaithful (h.ignores eq hmem) x).symm

/-- A first equation is shifted alike in the whole system. -/
theorem shift_first (heq : eq ∈ first) (du : String → ℝ) :
    eq.shift (values₁ ∪ values₂) (suppliedErrors errors₁ errors₂ linked) du =
      eq.shift values₁ errors₁ du := by
  unfold Equation.shift
  simp only [h.slope_first heq]
  congr 1
  apply Finset.filter_congr
  intro x hx
  exact not_congr (NameMap.mem_congr (h.getElem?_errors_first heq (List.mem_toFinset.mp hx)))

/-- The load of a first equation is the same in the whole system. -/
theorem load_first (heq : eq ∈ first) :
    eq.load (values₁ ∪ values₂) (suppliedErrors errors₁ errors₂ linked) =
      eq.load values₁ errors₁ := by
  unfold Equation.load
  simp only [h.slope_first heq, Finset.sum_filter]
  apply Finset.sum_congr rfl
  intro x hx
  have hagree := h.getElem?_errors_first heq (List.mem_toFinset.mp hx)
  rw [NameMap.getD_congr hagree]
  exact if_congr (NameMap.mem_congr hagree) rfl rfl

/-- In the whole system the linked variables deviate, too. -/
theorem shift_second (heq : eq ∈ second) (du : String → ℝ) :
    eq.shift (values₁ ∪ values₂) (suppliedErrors errors₁ errors₂ linked) du =
      eq.shift values₂ errors du +
        ∑ x ∈ eq.vars.toFinset with x ∈ linked, eq.slope values₂ x * du x := by
  unfold Equation.shift
  simp only [h.slope_second heq, Finset.sum_filter]
  rw [← Finset.sum_add_distrib]
  apply Finset.sum_congr rfl
  intro x hx
  by_cases hlinked : x ∈ linked
  · obtain ⟨hnot, hmem⟩ := h.not_mem_of_mem_linked hlinked
    rw [if_pos hnot, if_neg (not_not_intro hmem), if_pos hlinked, zero_add]
  · have hagree := h.getElem?_errors_second heq (List.mem_toFinset.mp hx) hlinked
    rw [if_neg hlinked, add_zero]
    exact if_congr (not_congr (NameMap.mem_congr hagree)) rfl rfl

/-- In the second part alone the errors of the linked variables add to the load. -/
theorem load_second (heq : eq ∈ second) :
    eq.load values₂ errors =
      eq.load (values₁ ∪ values₂) (suppliedErrors errors₁ errors₂ linked) +
        ∑ x ∈ eq.vars.toFinset with x ∈ linked, |eq.slope values₂ x| * |found x| := by
  unfold Equation.load
  simp only [h.slope_second heq, Finset.sum_filter]
  rw [← Finset.sum_add_distrib]
  apply Finset.sum_congr rfl
  intro x hx
  by_cases hlinked : x ∈ linked
  · obtain ⟨hnot, hmem⟩ := h.not_mem_of_mem_linked hlinked
    have hfound : errors.getD x 0 = found x := by
      rw [Std.ExtTreeMap.getD_eq_getD_getElem?, h.getElem?_errors, if_pos hlinked,
        Option.getD_some]
    rw [if_pos hmem, if_neg hnot, if_pos hlinked, zero_add, hfound]
  · have hagree := h.getElem?_errors_second heq (List.mem_toFinset.mp hx) hlinked
    rw [if_neg hlinked, add_zero, NameMap.getD_congr hagree]
    exact if_congr (NameMap.mem_congr hagree).symm rfl rfl

end Shifts

section Whole

/-- The whole system determines what its parts determine. -/
theorem mem_unknown_iff : x ∈ (Partition.ofEquations (first ++ second) (values₁ ∪ values₂)
      (suppliedErrors errors₁ errors₂ linked)).unknown ↔
    x ∈ (Partition.ofEquations first values₁ errors₁).unknown ∨
      x ∈ (Partition.ofEquations second values₂ errors).unknown := by
  simp only [Partition.mem_unknown_ofEquations, Std.ExtTreeMap.mem_union_iff]
  constructor
  · rintro ⟨⟨eq, heq, hx⟩, -, hnot⟩
    rcases List.mem_append.mp heq with heq | heq
    · refine .inl ⟨⟨eq, heq, hx⟩, h.determines₁.valued eq heq x hx, ?_⟩
      rwa [← NameMap.mem_congr (h.getElem?_errors_first heq hx)]
    · by_cases hlinked : x ∈ linked
      · exact .inl (Partition.mem_unknown_ofEquations.mp ((h.mem_linked x).mp hlinked).1)
      · refine .inr ⟨⟨eq, heq, hx⟩, h.determines₂.valued eq heq x hx, ?_⟩
        rwa [← NameMap.mem_congr (h.getElem?_errors_second heq hx hlinked)]
  · rintro (⟨⟨eq, heq, hx⟩, hvalue, hnot⟩ | ⟨⟨eq, heq, hx⟩, hvalue, hnot⟩)
    · refine ⟨⟨eq, List.mem_append_left _ heq, hx⟩, .inl hvalue, ?_⟩
      rwa [NameMap.mem_congr (h.getElem?_errors_first heq hx)]
    · have hfree : x ∉ linked := fun hlinked => hnot (h.not_mem_of_mem_linked hlinked).2
      refine ⟨⟨eq, List.mem_append_right _ heq, hx⟩, .inr hvalue, ?_⟩
      rwa [NameMap.mem_congr (h.getElem?_errors_second heq hx hfree)]

/-- What the first system calculates is not unknown in the second. -/
theorem not_mem_unknown_second (hx : x ∈ (Partition.ofEquations first values₁ errors₁).unknown) :
    x ∉ (Partition.ofEquations second values₂ errors).unknown := by
  intro hsecond
  obtain ⟨hvar, -, hnot⟩ := Partition.mem_unknown_ofEquations.mp hsecond
  exact hnot (h.not_mem_of_mem_linked ((h.mem_linked x).mpr ⟨hx, hvar⟩)).2

/-- The whole system has as many unknown variables as equations. -/
theorem length_unknown : (Partition.ofEquations (first ++ second) (values₁ ∪ values₂)
    (suppliedErrors errors₁ errors₂ linked)).unknown.length = (first ++ second).length := by
  have hperm : (Partition.ofEquations (first ++ second) (values₁ ∪ values₂)
      (suppliedErrors errors₁ errors₂ linked)).unknown.Perm
        ((Partition.ofEquations first values₁ errors₁).unknown ++
          (Partition.ofEquations second values₂ errors).unknown) := by
    refine (List.perm_ext_iff_of_nodup Partition.nodup_unknown ?_).mpr ?_
    · refine List.nodup_append.mpr ⟨Partition.nodup_unknown, Partition.nodup_unknown, ?_⟩
      rintro x hfirst _ hsecond rfl
      exact h.not_mem_unknown_second hfirst hsecond
    · intro x
      rw [List.mem_append]
      exact h.mem_unknown_iff
  rw [hperm.length_eq, List.length_append, List.length_append, h.determines₁.square,
    h.determines₂.square]

/-- The whole system determines its deviations: those of the first part first, and with them those
of the second. -/
theorem determines : Determines (first ++ second) (values₁ ∪ values₂)
    (suppliedErrors errors₁ errors₂ linked) where
  valued := by
    intro eq heq x hx
    rcases List.mem_append.mp heq with heq | heq
    · exact Std.ExtTreeMap.mem_union_iff.mpr (.inl (h.determines₁.valued eq heq x hx))
    · exact Std.ExtTreeMap.mem_union_iff.mpr (.inr (h.determines₂.valued eq heq x hx))
  differentiable := by
    intro eq heq x hx
    obtain ⟨edits, hfaithful⟩ := h.faithful eq heq
    have hkeys := h.ignores eq heq
    rcases List.mem_append.mp heq with heq | heq
    · obtain ⟨d, hd⟩ := h.determines₁.differentiable eq heq x hx
      have hsame := Equation.partialAt_congr (h.getElem?_values_first heq) hfaithful hkeys x
      exact ⟨d, hsame ▸ hd⟩
    · obtain ⟨d, hd⟩ := h.determines₂.differentiable eq heq x hx
      have hsame := Equation.partialAt_congr (h.getElem?_values_second heq) hfaithful hkeys x
      exact ⟨d, hsame ▸ hd⟩
  square := h.length_unknown
  injective := by
    intro du hdu
    have hfirst : ∀ x ∈ (Partition.ofEquations first values₁ errors₁).unknown, du x = 0 := by
      apply h.determines₁.injective
      intro eq heq
      rw [← h.shift_first heq]
      exact hdu eq (List.mem_append_left _ heq)
    -- Once the linked variables do not deviate, the second part is shifted as if it stood alone.
    have hsecond : ∀ x ∈ (Partition.ofEquations second values₂ errors).unknown, du x = 0 := by
      apply h.determines₂.injective
      intro eq heq
      have hshift := hdu eq (List.mem_append_right _ heq)
      have hlinked : ∑ x ∈ eq.vars.toFinset with x ∈ linked, eq.slope values₂ x * du x = 0 := by
        apply Finset.sum_eq_zero
        intro x hx
        rw [hfirst x ((h.mem_linked x).mp (Finset.mem_filter.mp hx).2).1, mul_zero]
      rwa [h.shift_second heq, hlinked, add_zero] at hshift
    intro x hx
    exact (h.mem_unknown_iff.mp hx).elim (hfirst x) (hsecond x)

end Whole

section Deviations

/-- Deviations of the whole system are deviations of the first one. -/
theorem deviates_first (hdu : Deviates (first ++ second) (values₁ ∪ values₂)
    (suppliedErrors errors₁ errors₂ linked) du) : Deviates first values₁ errors₁ du := by
  intro eq heq
  rw [← h.shift_first heq, ← h.load_first heq]
  exact hdu eq (List.mem_append_left _ heq)

/-- A deviation of the first part goes on through the second part without shifting it. -/
theorem exists_deviates (hdu : Deviates first values₁ errors₁ du) :
    ∃ dv : String → ℝ, Deviates (first ++ second) (values₁ ∪ values₂)
      (suppliedErrors errors₁ errors₂ linked) dv ∧
        ∀ x ∈ (Partition.ofEquations first values₁ errors₁).unknown, dv x = du x := by
  obtain ⟨dw, hdw⟩ := h.determines₂.exists_shift_eq fun eq =>
    -∑ x ∈ eq.vars.toFinset with x ∈ linked, eq.slope values₂ x * du x
  -- The second part makes up for what the linked variables bring in.
  let dv (x : String) : ℝ :=
    if x ∈ (Partition.ofEquations second values₂ errors).unknown then dw x else du x
  have hdv_first {x : String} (hx : x ∈ (Partition.ofEquations first values₁ errors₁).unknown) :
      dv x = du x :=
    if_neg (h.not_mem_unknown_second hx)
  refine ⟨dv, ?_, fun x hx => hdv_first hx⟩
  intro eq heq
  rcases List.mem_append.mp heq with heq | heq
  · have hshift : eq.shift values₁ errors₁ dv = eq.shift values₁ errors₁ du := by
      apply Equation.shift_congr
      intro x hx hnot
      apply hdv_first
      exact Partition.mem_unknown_ofEquations.mpr
        ⟨⟨eq, heq, hx⟩, h.determines₁.valued eq heq x hx, hnot⟩
    rw [h.shift_first heq, h.load_first heq, hshift]
    exact hdu eq heq
  · have hshift : eq.shift values₂ errors dv = eq.shift values₂ errors dw := by
      apply Equation.shift_congr
      intro x hx hnot
      apply if_pos
      exact Partition.mem_unknown_ofEquations.mpr
        ⟨⟨eq, heq, hx⟩, h.determines₂.valued eq heq x hx, hnot⟩
    have hlinked : ∑ x ∈ eq.vars.toFinset with x ∈ linked, eq.slope values₂ x * dv x =
        ∑ x ∈ eq.vars.toFinset with x ∈ linked, eq.slope values₂ x * du x := by
      apply Finset.sum_congr rfl
      intro x hx
      rw [hdv_first ((h.mem_linked x).mp (Finset.mem_filter.mp hx).2).1]
    rw [h.shift_second heq, hshift, hlinked, hdw eq heq, neg_add_cancel, abs_zero]
    exact Equation.load_nonneg eq _ _

/-- The variables of the first part have the same deviations in the whole system. -/
theorem deviations_first (hx : x ∈ (Partition.ofEquations first values₁ errors₁).unknown) :
    {d | ∃ du : String → ℝ, Deviates (first ++ second) (values₁ ∪ values₂)
      (suppliedErrors errors₁ errors₂ linked) du ∧ du x = d} =
      {d | ∃ du : String → ℝ, Deviates first values₁ errors₁ du ∧ du x = d} := by
  ext d
  constructor
  · rintro ⟨du, hdu, rfl⟩
    exact ⟨du, h.deviates_first hdu, rfl⟩
  · rintro ⟨du, hdu, rfl⟩
    obtain ⟨dv, hdv, hagree⟩ := h.exists_deviates hdu
    exact ⟨dv, hdv, hagree x hx⟩

/-- A linked variable deviates by at most the error that is found for it. -/
theorem abs_le_found (hdu : Deviates first values₁ errors₁ du) (hx : x ∈ linked) :
    |du x| ≤ |found x| := by
  have hneg : Deviates first values₁ errors₁ fun x => -du x := by
    intro eq heq
    rw [Equation.shift_neg, abs_neg]
    exact hdu eq heq
  have hle : du x ≤ found x := (h.greatest x hx).2 ⟨du, hdu, rfl⟩
  have hge : -du x ≤ found x := (h.greatest x hx).2 ⟨_, hneg, rfl⟩
  exact (abs_le'.mpr ⟨hle, hge⟩).trans (le_abs_self _)

/-- The second part alone admits the deviations of the whole system. -/
theorem deviates_second (hdu : Deviates (first ++ second) (values₁ ∪ values₂)
    (suppliedErrors errors₁ errors₂ linked) du) : Deviates second values₂ errors du := by
  intro eq heq
  have hwhole := hdu eq (List.mem_append_right _ heq)
  have hlinked : |∑ x ∈ eq.vars.toFinset with x ∈ linked, eq.slope values₂ x * du x| ≤
      ∑ x ∈ eq.vars.toFinset with x ∈ linked, |eq.slope values₂ x| * |found x| := by
    refine (Finset.abs_sum_le_sum_abs _ _).trans (Finset.sum_le_sum ?_)
    intro x hx
    rw [abs_mul]
    have hle := h.abs_le_found (h.deviates_first hdu) (Finset.mem_filter.mp hx).2
    gcongr
  have hshift := h.shift_second heq du
  calc |eq.shift values₂ errors du|
    _ = |eq.shift (values₁ ∪ values₂) (suppliedErrors errors₁ errors₂ linked) du -
          ∑ x ∈ eq.vars.toFinset with x ∈ linked, eq.slope values₂ x * du x| := by
        rw [hshift, add_sub_cancel_right]
    _ ≤ _ := abs_sub _ _
    _ ≤ _ := add_le_add hwhole hlinked
    _ = eq.load values₂ errors := (h.load_second heq).symm

end Deviations

end IsSolved

end Solver

end ErrorBudget
