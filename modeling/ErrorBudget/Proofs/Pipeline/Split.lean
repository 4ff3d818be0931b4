import ErrorBudget.Proofs.Pipeline.Solve
import ErrorBudget.Proofs.Solver.Split

/-!
# A system in two linked stages

To split a system into two linked stages is conservative: solved as one system it has the same
errors for the variables of the first stage and no larger errors for those of the second
(`Pipeline.solve_split`). The second stage knows the errors of the linked variables, but no longer
that they stem from the same sources.

The functions of an equation are handed the whole point, and here they are to read nothing in it but
the variables of the equation. One that reads a variable of the other stage finds it in the whole
system only, and the two ways to solve the system part (`Pipeline.not_solve_split_of_undeclared`).
-/

set_option autoImplicit false

namespace ErrorBudget

/-- The errors behind links that lead from every variable to itself. -/
theorem Stage.getElem?_overwritten {α : Type} {s : Stage α} {previous : Table α} (errors : Point α)
    (hself : ∀ link ∈ s.links, link.source = link.target)
    (hsource : ∀ link ∈ s.links, ∃ row, previous.get? link.source = some row) (x : String) :
    (s.overwritten (some previous) errors)[x]? =
      if x ∈ s.links.map Link.target then (previous.get? x).map Row.error else errors[x]? := by
  show (s.links.foldl (Link.overwrite previous) errors)[x]? = _
  generalize s.links = links at *
  induction links generalizing errors with
  | nil => simp
  | cons link links ih =>
    obtain ⟨⟨row, hrow⟩, hsources⟩ := List.forall_mem_cons.mp hsource
    obtain ⟨hlink, hselves⟩ := List.forall_mem_cons.mp hself
    rw [List.foldl_cons, ih _ hselves hsources, Link.overwrite_of_get? hrow, List.map_cons,
      Std.ExtTreeMap.getElem?_insert]
    by_cases hx : x ∈ links.map Link.target
    · rw [if_pos hx, if_pos (List.mem_cons_of_mem _ hx)]
    · by_cases htarget : link.target = x
      · rw [hlink, htarget] at hrow
        simp [hx, htarget, hrow]
      · have hne : x ≠ link.target := fun h => htarget h.symm
        simp [hx, htarget, hne]

namespace Solver

variable {s : Solver ℝ} {combo : Option String} {equations : List (Equation ℝ)}
  {values errors : Point ℝ} {t : Table ℝ} {x : String}

/-- The unknown variables have the calculated rows, with their greatest deviations as errors. -/
theorem exists_get?_iff_mem_unknown (hselect : s.equations.select combo = .ok equations)
    (h : s.solve values errors { combo := combo, check := false } = .ok t) :
    x ∈ (Partition.ofEquations equations values errors).unknown ↔
      ∃ row, t.get? x = some row ∧ row.isCalculated := by
  have hdistinct := hasDistinctNames_of_solve h
  rw [solve_eq_of_select hselect] at h
  rw [mem_unknown_iff_exists_row rfl h]
  apply exists_congr
  intro row
  rw [hdistinct.get?_eq_some_iff]
  tauto

/-- The error of a calculated row is the greatest deviation of its variable. -/
theorem isGreatest_of_get? (hselect : s.equations.select combo = .ok equations)
    (h : s.solve values errors { combo := combo, check := false } = .ok t) {row : Row ℝ}
    (hrow : t.get? x = some row) (hcalculated : row.isCalculated) :
    IsGreatest {d | ∃ du : String → ℝ, Deviates equations values errors du ∧ du x = d}
      row.error := by
  obtain ⟨hmem, rfl⟩ := Table.mem_of_get?_eq_some hrow
  rw [solve_eq_of_select hselect] at h
  exact isGreatest_of_solveEquations rfl rfl rfl h ⟨hmem, hcalculated⟩

/-- Every unknown variable of a system that was solved has a greatest deviation. -/
theorem exists_isGreatest_of_mem_unknown (hselect : s.equations.select combo = .ok equations)
    (h : s.solve values errors { combo := combo, check := false } = .ok t)
    (hx : x ∈ (Partition.ofEquations equations values errors).unknown) :
    ∃ row, t.get? x = some row ∧ row.isCalculated ∧
      IsGreatest {d | ∃ du : String → ℝ, Deviates equations values errors du ∧ du x = d}
        row.error := by
  obtain ⟨row, hrow, hcalculated⟩ := (exists_get?_iff_mem_unknown hselect h).mp hx
  exact ⟨row, hrow, hcalculated, isGreatest_of_get? hselect h hrow hcalculated⟩

end Solver

namespace Pipeline

variable {first second : Stage ℝ} {s : Solver ℝ} {combo : Option String}
  {equations₁ equations₂ : List (Equation ℝ)} {values₁ values₂ errors₁ errors₂ : Point ℝ}
  {t t₁ t₂ : Table ℝ}

/-- The tables of two stages that are solved without a check. -/
theorem exists_tables (h : (Pipeline.mk [first, second]).solve [values₁, values₂]
    [errors₁, errors₂] none { check := false } = .ok t) :
    ∃ t₁ t₂, t.Joins [t₁, t₂] ∧
      first.solver.solve values₁ errors₁ { combo := first.combo, check := false } = .ok t₁ ∧
      second.solver.solve values₂ (second.overwritten (some t₁) errors₂)
        { combo := second.combo, check := false } = .ok t₂ ∧
      ∀ link ∈ second.links, ∃ row, t₁.get? link.source = some row := by
  have hfits : (Pipeline.mk [first, second]).Fits [values₁, values₂] [errors₁, errors₂] none :=
    ⟨rfl, rfl, by simp⟩
  obtain ⟨tables, hchain, hjoins⟩ := hfits.solve_eq_ok_iff.mp h
  cases hchain with
  | @cons _ _ t₁ _ _ h₁ hchain =>
    cases hchain with
    | @cons _ _ t₂ _ _ h₂ hchain =>
      cases hchain with
      | nil =>
        refine ⟨t₁, t₂, hjoins, h₁.solved, h₂.solved, ?_⟩
        intro link hlink
        obtain ⟨-, -, hsource, -⟩ := h₂.links link hlink
        exact Table.exists_get?_iff.mpr hsource

/-- The tables of two linked stages belong to a system that is solved in two parts. -/
theorem isSolved (hreachable₁ : first.solver.Reachable) (hreachable₂ : second.solver.Reachable)
    (hselect₁ : first.solver.equations.select first.combo = .ok equations₁)
    (hselect₂ : second.solver.equations.select second.combo = .ok equations₂)
    (hignores : ∀ eq ∈ equations₁ ++ equations₂, eq.IgnoresExtraKeys)
    (hself : ∀ link ∈ second.links, link.source = link.target)
    (hsplit : Solver.IsSplit equations₁ equations₂ values₁ values₂ errors₁ errors₂
      (second.links.map Link.target))
    (h₁ : first.solver.solve values₁ errors₁ { combo := first.combo, check := false } = .ok t₁)
    (h₂ : second.solver.solve values₂ (second.overwritten (some t₁) errors₂)
      { combo := second.combo, check := false } = .ok t₂)
    (hsources : ∀ link ∈ second.links, ∃ row, t₁.get? link.source = some row) :
    Solver.IsSolved equations₁ equations₂ values₁ values₂ errors₁ errors₂
      (second.links.map Link.target) (fun x => ((t₁.get? x).map Row.error).getD 0)
      (second.overwritten (some t₁) errors₂) := by
  -- The linked variables have calculated rows in the first stage.
  have hrow {x : String} (hx : x ∈ second.links.map Link.target) :
      ∃ row, t₁.get? x = some row ∧ row.isCalculated :=
    (Solver.exists_get?_iff_mem_unknown hselect₁ h₁).mp ((hsplit.mem_linked x).mp hx).1
  refine ⟨hsplit, ?_, hignores, ?_, ?_, ?_, ?_⟩
  · intro eq heq
    rcases List.mem_append.mp heq with heq | heq
    · exact hreachable₁.exists_isFaithful hselect₁ heq
    · exact hreachable₂.exists_isFaithful hselect₂ heq
  · rw [Solver.solve_eq_of_select hselect₁] at h₁
    exact (Solver.exists_solveEquations_iff rfl).mp ⟨t₁, h₁⟩
  · rw [Solver.solve_eq_of_select hselect₂] at h₂
    exact (Solver.exists_solveEquations_iff rfl).mp ⟨t₂, h₂⟩
  · intro x
    rw [Stage.getElem?_overwritten errors₂ hself hsources x]
    split_ifs with hx
    · obtain ⟨row, hget, -⟩ := hrow hx
      simp [hget]
    · rfl
  · intro x hx
    obtain ⟨row, hget, hcalculated⟩ := hrow hx
    simpa [hget] using Solver.isGreatest_of_get? hselect₁ h₁ hget hcalculated

/-- To split a system into two linked stages is conservative where functions read nothing but the
variables of their equations: if the stages succeed, then so does the whole system, with the same
errors for the variables of the first stage and no larger errors for those of the second. -/
theorem solve_split (hreachable₁ : first.solver.Reachable) (hreachable₂ : second.solver.Reachable)
    (hselect₁ : first.solver.equations.select first.combo = .ok equations₁)
    (hselect₂ : second.solver.equations.select second.combo = .ok equations₂)
    (hselect : s.equations.select combo = .ok (equations₁ ++ equations₂))
    (hignores : ∀ eq ∈ equations₁ ++ equations₂, eq.IgnoresExtraKeys)
    (hself : ∀ link ∈ second.links, link.source = link.target)
    (hsplit : Solver.IsSplit equations₁ equations₂ values₁ values₂ errors₁ errors₂
      (second.links.map Link.target))
    (h : (Pipeline.mk [first, second]).solve [values₁, values₂] [errors₁, errors₂] none
      { check := false } = .ok t) :
    ∃ whole, s.solve (values₁ ∪ values₂)
        (Solver.suppliedErrors errors₁ errors₂ (second.links.map Link.target))
        { combo := combo, check := false } = .ok whole ∧
      (∀ x row, t.getInStage? 1 x = some row → row.isCalculated →
        ∃ row', whole.get? x = some row' ∧ row'.isCalculated ∧ row'.error = row.error) ∧
      ∀ x row, t.getInStage? 2 x = some row → row.isCalculated →
        ∃ row', whole.get? x = some row' ∧ row'.isCalculated ∧ row'.error ≤ row.error := by
  obtain ⟨t₁, t₂, hjoins, h₁, h₂, hsources⟩ := exists_tables h
  have hsolved :=
    isSolved hreachable₁ hreachable₂ hselect₁ hselect₂ hignores hself hsplit h₁ h₂ hsources
  -- The whole system determines its deviations because both parts do.
  obtain ⟨whole, hwhole⟩ : ∃ whole, s.solve (values₁ ∪ values₂)
      (Solver.suppliedErrors errors₁ errors₂ (second.links.map Link.target))
      { combo := combo, check := false } = .ok whole := by
    rw [Solver.solve_eq_of_select hselect]
    exact (Solver.exists_solveEquations_iff rfl).mpr hsolved.determines
  refine ⟨whole, hwhole, ?_, ?_⟩
  · intro x row hstage hcalculated
    obtain ⟨_, r, hs, hr, rfl⟩ := hjoins.exists_get?_of_getInStage? hstage
    obtain rfl := Option.some.inj hs
    have hunknown := (Solver.exists_get?_iff_mem_unknown hselect₁ h₁).mpr ⟨r, hr, hcalculated⟩
    obtain ⟨r', hr', hcalculated', hgreatest⟩ := Solver.exists_isGreatest_of_mem_unknown hselect
      hwhole (hsolved.mem_unknown_iff.mpr (.inl hunknown))
    rw [hsolved.deviations_first hunknown] at hgreatest
    have hfirst : IsGreatest _ r.error := Solver.isGreatest_of_get? hselect₁ h₁ hr hcalculated
    exact ⟨r', hr', hcalculated', hgreatest.unique hfirst⟩
  · intro x row hstage hcalculated
    obtain ⟨_, r, hs, hr, rfl⟩ := hjoins.exists_get?_of_getInStage? hstage
    obtain rfl := Option.some.inj hs
    have hunknown := (Solver.exists_get?_iff_mem_unknown hselect₂ h₂).mpr ⟨r, hr, hcalculated⟩
    obtain ⟨r', hr', hcalculated', hgreatest⟩ := Solver.exists_isGreatest_of_mem_unknown hselect
      hwhole (hsolved.mem_unknown_iff.mpr (.inr hunknown))
    refine ⟨r', hr', hcalculated', ?_⟩
    have hsecond : IsGreatest _ r.error := Solver.isGreatest_of_get? hselect₂ h₂ hr hcalculated
    -- Every deviation of the whole system is one of the second part, where the linked variables may
    -- deviate independently, so the greatest one can only be larger there.
    apply IsGreatest.mono hgreatest hsecond
    rintro d ⟨du, hdu, rfl⟩
    exact ⟨du, hsolved.deviates_second hdu, rfl⟩

end Pipeline

section Scalings

variable {a : Point ℝ → ℝ} {x y : String} {values errors : Point ℝ}

/-- The equation `a y - x = 0` by functions. The factor is a function of the whole point. -/
noncomputable def Native.scaled (a : Point ℝ → ℝ) (x y : String) : Native ℝ where
  label := y ++ " - " ++ x
  vars := NameSet.ofNames [x, y]
  residual p := a p * p.getD y 0 - p.getD x 0
  partials := ((∅ : NameMap (Point ℝ → ℝ)).insert x fun _ => -1).insert y a

/-- The equation `a y - x = 0`. -/
noncomputable def Equation.scaled (a : Point ℝ → ℝ) (x y : String) : Equation ℝ :=
  .native (Native.scaled a x y).label (Native.scaled a x y).residual (Native.scaled a x y).partials

/-- The equation `y - x = 0`. -/
noncomputable abbrev Equation.copy (x y : String) : Equation ℝ := .scaled (fun _ => 1) x y

namespace Equation

/-- The derivatives of a scaled equation. -/
theorem getElem?_scaled (a : Point ℝ → ℝ) (x y z : String) : (Native.scaled a x y).partials[z]? =
    if y = z then some a else if x = z then some fun _ => -1 else none := by
  simp [Native.scaled, Std.ExtTreeMap.getElem?_insert]

/-- A scaled equation has two derivatives. -/
theorem mem_scaled {z : String} : z ∈ (Native.scaled a x y).partials ↔ z = x ∨ z = y := by
  rw [← NameMap.exists_getElem?_iff, getElem?_scaled]
  by_cases hy : y = z
  · simp [hy]
  · by_cases hx : x = z
    · simp [hx, hy]
    · have hne : z ≠ x ∧ z ≠ y := ⟨fun h => hx h.symm, fun h => hy h.symm⟩
      simp [hx, hy, hne]

/-- A scaled equation has two variables. -/
theorem mem_vars_scaled {z : String} : z ∈ (scaled a x y).vars ↔ z = x ∨ z = y :=
  Std.ExtTreeMap.mem_keys.trans mem_scaled

/-- A scaled equation is accepted. -/
theorem ofNative_scaled (a : Point ℝ → ℝ) (x y : String) :
    ofNative (Native.scaled a x y) = .ok (scaled a x y) := by
  refine ofNative_eq_ok_iff.mpr ⟨?_, rfl⟩
  intro z
  rw [mem_scaled]
  simp [Native.scaled]

/-- A constant factor reads nothing. -/
theorem ignoresExtraKeys_copy : (copy x y).IgnoresExtraKeys := by
  intro p q h
  have hx : p[x]? = q[x]? := h x (mem_scaled.mpr (.inl rfl))
  have hy : p[y]? = q[y]? := h y (mem_scaled.mpr (.inr rfl))
  constructor
  · show 1 * p.getD y 0 - p.getD x 0 = 1 * q.getD y 0 - q.getD x 0
    rw [NameMap.getD_congr hx, NameMap.getD_congr hy]
  · intro z f hf
    rw [getElem?_scaled] at hf
    split_ifs at hf
    · obtain rfl := Option.some.inj hf
      rfl
    · obtain rfl := Option.some.inj hf
      rfl

/-- The derivatives of a scaled equation are defined where both variables have values. -/
theorem partialAt_scaled (hxy : x ≠ y) (hx : x ∈ values) (hy : y ∈ values) :
    (scaled a x y).partialAt x values = .ok (-1) ∧
      (scaled a x y).partialAt y values = .ok (a values) := by
  have hresolved : (scaled a x y).requireResolved values = .ok () := by
    rw [requireResolved_eq_ok_iff]
    intro z hz
    rcases mem_vars_scaled.mp hz with rfl | rfl
    · exact hx
    · exact hy
  have hpartial {z : String} {f : Point ℝ → ℝ} (h : (Native.scaled a x y).partials[z]? = some f) :
      (scaled a x y).partialAt z values = .ok (f values) := by
    unfold scaled at hresolved ⊢
    simp only [partialAt, h, hresolved]
    rfl
  constructor
  · exact hpartial (f := fun _ => -1) (by rw [getElem?_scaled, if_neg hxy.symm, if_pos rfl])
  · exact hpartial (by rw [getElem?_scaled, if_pos rfl])

/-- The terms of the variables that are free. -/
theorem shift_scaled (hxy : x ≠ y) (hx : x ∈ values) (hy : y ∈ values) (hunknown : y ∉ errors)
    (du : String → ℝ) : (scaled a x y).shift values errors du =
      a values * du y - if x ∈ errors then 0 else du x := by
  obtain ⟨hfirst, hsecond⟩ := partialAt_scaled (a := a) hxy hx hy
  have hvars : (scaled a x y).vars.toFinset = {x, y} := by
    ext v
    simp [mem_vars_scaled]
  rw [shift, hvars, Finset.sum_filter, Finset.sum_pair hxy, slope_of_eq_ok hfirst,
    slope_of_eq_ok hsecond, if_pos hunknown]
  by_cases hknown : x ∈ errors
  · simp [hknown]
  · simp [hknown]
    ring

end Equation

/-- Without an error for it, the scaled variable alone is unknown. -/
theorem Partition.unknown_scaled (hy : y ∈ values) (hknown : x ∈ errors) (hunknown : y ∉ errors) :
    (Partition.ofEquations [Equation.scaled a x y] values errors).unknown = [y] := by
  apply List.perm_singleton.mp
  refine (List.perm_ext_iff_of_nodup Partition.nodup_unknown (List.nodup_singleton y)).mpr ?_
  intro z
  simp only [Partition.mem_unknown_ofEquations, List.mem_singleton, exists_eq_left,
    Equation.mem_vars_scaled]
  constructor
  · rintro ⟨rfl | rfl, -, hnot⟩
    · exact absurd hknown hnot
    · rfl
  · rintro rfl
    exact ⟨.inr rfl, hy, hunknown⟩

/-- A scaled variable is determined if the error of the other one is given. -/
theorem Solver.determines_scaled (ha : a values ≠ 0) (hxy : x ≠ y) (hx : x ∈ values)
    (hy : y ∈ values) (hknown : x ∈ errors) (hunknown : y ∉ errors) :
    Determines [Equation.scaled a x y] values errors := by
  have hcolumns := Partition.unknown_scaled (a := a) hy hknown hunknown
  refine ⟨?_, ?_, by rw [hcolumns]; rfl, ?_⟩
  · simp only [List.mem_singleton, forall_eq, Equation.mem_vars_scaled]
    rintro z (rfl | rfl)
    · exact hx
    · exact hy
  · obtain ⟨hfirst, hsecond⟩ := Equation.partialAt_scaled (a := a) hxy hx hy
    simp only [List.mem_singleton, forall_eq, Equation.mem_vars_scaled]
    rintro z (rfl | rfl)
    · exact ⟨_, hfirst⟩
    · exact ⟨_, hsecond⟩
  · intro du hdu z hz
    rw [hcolumns, List.mem_singleton] at hz
    have hshift := hdu _ (List.mem_singleton.mpr rfl)
    rw [Equation.shift_scaled hxy hx hy hunknown, if_pos hknown, sub_zero] at hshift
    rw [hz]
    exact (mul_eq_zero.mp hshift).resolve_left ha

/-- The solver of such an equation, which has been added to an empty set. -/
noncomputable def Solver.scaled (a : Point ℝ → ℝ) (x y : String) : Solver ℝ :=
  ⟨EquationSet.run {} [.native (Native.scaled a x y)], .standard⟩

/-- The solver of one scaled equation has this equation. -/
theorem Solver.select_scaled (a : Point ℝ → ℝ) (x y : String) :
    (Solver.scaled a x y).equations.select none = .ok [Equation.scaled a x y] := by
  have hafter := (EquationSet.Step.native (s := {}) (Equation.ofNative_scaled a x y)).after_eq
  simp [Solver.scaled, EquationSet.run, hafter, EquationSet.select, EquationSet.push]

/-- The solver of two such equations. -/
noncomputable def Solver.scaledTwice (a b : Point ℝ → ℝ) (x y z : String) : Solver ℝ :=
  ⟨EquationSet.run {} [.native (.scaled a x y), .native (.scaled b y z)], .standard⟩

/-- The solver of two scaled equations has both of them in their order. -/
theorem Solver.select_scaledTwice (a b : Point ℝ → ℝ) (x y z : String) :
    (Solver.scaledTwice a b x y z).equations.select none =
      .ok [Equation.scaled a x y, Equation.scaled b y z] := by
  have hafter (e : EquationSet ℝ) (c : Point ℝ → ℝ) (v w : String) :=
    (EquationSet.Step.native (s := e) (Equation.ofNative_scaled c v w)).after_eq
  simp [Solver.scaledTwice, EquationSet.run, hafter, EquationSet.select, EquationSet.push]

/-- A scaled equation with a factor that is not zero is solved, and its table has a row for the
scaled variable. -/
theorem Solver.exists_row_scaled (ha : a values ≠ 0) (hxy : x ≠ y) (hx : x ∈ values)
    (hy : y ∈ values) (hknown : x ∈ errors) (hunknown : y ∉ errors) :
    ∃ t row, (Solver.scaled a x y).solve values errors { check := false } = .ok t ∧
      t.get? y = some row ∧ row.isCalculated := by
  obtain ⟨t, ht⟩ : ∃ t, (Solver.scaled a x y).solve values errors { check := false } = .ok t := by
    rw [solve_eq_of_select (select_scaled a x y)]
    exact (exists_solveEquations_iff rfl).mpr (determines_scaled ha hxy hx hy hknown hunknown)
  have hcolumns := Partition.unknown_scaled (a := a) hy hknown hunknown
  obtain ⟨row, hrow, hcalculated⟩ := (exists_get?_iff_mem_unknown (select_scaled a x y) ht).mp
    (hcolumns ▸ List.mem_singleton_self y)
  exact ⟨t, row, ht, hrow, hcalculated⟩

/-- The value one for two variables. -/
noncomputable def onesAt (x y : String) : Point ℝ := ((∅ : Point ℝ).insert x 1).insert y 1

/-- Two variables have the value one. -/
theorem mem_onesAt {z : String} : z ∈ onesAt x y ↔ z = x ∨ z = y := by
  by_cases hx : z = x
  · simp [onesAt, hx]
  · by_cases hy : z = y
    · simp [onesAt, hy]
    · have hne : ¬x = z ∧ ¬y = z := ⟨fun h => hx h.symm, fun h => hy h.symm⟩
      simp [onesAt, hx, hy, hne]

/-- Every value is one. -/
theorem getElem?_onesAt {z : String} {b : ℝ} (h : (onesAt x y)[z]? = some b) : b = 1 := by
  simp only [onesAt, Std.ExtTreeMap.getElem?_insert] at h
  split_ifs at h
  · exact (Option.some.inj h).symm
  · exact (Option.some.inj h).symm
  · simp at h

variable {z : String}

/-- A variable of which another one is a multiple, and this one of a third: two parts that share
the one in the middle. -/
theorem Solver.isSplit_scaled (b : Point ℝ → ℝ) (hxy : x ≠ y) (hyz : y ≠ z) (hxz : x ≠ z) (e : ℝ) :
    IsSplit [Equation.scaled a x y] [Equation.scaled b y z] (onesAt x y) (onesAt y z)
      ((∅ : Point ℝ).insert x e) ∅ [y] where
  own_values₁ := by simp [mem_onesAt, Equation.mem_vars_scaled]
  own_values₂ := by simp [mem_onesAt, Equation.mem_vars_scaled]
  own_errors₁ := by
    intro v hv
    have hname : x = v := by simpa using hv
    exact ⟨_, List.mem_singleton_self _, Equation.mem_vars_scaled.mpr (.inl hname.symm)⟩
  own_errors₂ := by simp
  agree_values _ _ _ hb hc := (getElem?_onesAt hb).trans (getElem?_onesAt hc).symm
  agree_errors := by simp
  triangular := by
    simp only [Partition.mem_unknown_ofEquations, List.mem_singleton, exists_eq_left, forall_eq,
      Equation.mem_vars_scaled]
    rintro v ⟨rfl | rfl, -, -⟩ hfree
    · exact absurd rfl hfree
    · exact not_or.mpr ⟨hxz.symm, hyz.symm⟩
  mem_linked := by
    intro v
    rw [Partition.unknown_scaled (by simp [mem_onesAt]) (by simp) (by simp [hxy])]
    simp only [List.mem_singleton, exists_eq_left, Equation.mem_vars_scaled]
    constructor
    · rintro rfl
      exact ⟨rfl, .inl rfl⟩
    · exact And.left

/-- Two linked stages for a variable, a multiple of it, and a multiple of that. -/
noncomputable def Pipeline.scaledTwice (a b : Point ℝ → ℝ) (x y z : String) : Pipeline ℝ :=
  ⟨[⟨.scaled a x y, [], none⟩, ⟨.scaled b y z, [⟨y, y⟩], none⟩]⟩

/-- The stages succeed if neither factor is zero where its stage is. -/
theorem Pipeline.exists_scaledTwice {b : Point ℝ → ℝ} (hxy : x ≠ y) (hyz : y ≠ z) (e : ℝ)
    (ha : a (onesAt x y) ≠ 0) (hb : b (onesAt y z) ≠ 0) :
    ∃ t row, (Pipeline.scaledTwice a b x y z).solve [onesAt x y, onesAt y z]
        [(∅ : Point ℝ).insert x e, ∅] none { check := false } = .ok t ∧
      t.getInStage? 2 z = some row ∧ row.isCalculated := by
  let errors₁ : Point ℝ := (∅ : Point ℝ).insert x e
  let first : Stage ℝ := ⟨.scaled a x y, [], none⟩
  let second : Stage ℝ := ⟨.scaled b y z, [⟨y, y⟩], none⟩
  -- The first stage finds an error for `y`, and with it the second stage finds one for `z`.
  have hx : x ∈ errors₁ := by simp [errors₁]
  obtain ⟨t₁, row₁, h₁, hrow₁, -⟩ := Solver.exists_row_scaled ha hxy (by simp [mem_onesAt])
    (by simp [mem_onesAt]) hx (by simp [errors₁, hxy])
  have hlookup := @Stage.getElem?_overwritten ℝ second t₁ ∅ (by simp [second])
    (by simpa [second] using ⟨row₁, hrow₁⟩)
  have hy : y ∈ second.overwritten (some t₁) ∅ := NameMap.exists_getElem?_iff.mp
    ⟨row₁.error, by simp [hlookup, second, hrow₁]⟩
  have hz : z ∉ second.overwritten (some t₁) ∅ := NameMap.getElem?_eq_none_iff.mp
    (by simp [hlookup, second, hyz.symm])
  obtain ⟨t₂, row₂, h₂, hrow₂, hcalculated₂⟩ := Solver.exists_row_scaled hb hyz
    (by simp [mem_onesAt]) (by simp [mem_onesAt]) hy hz
  have hchain : StageRun.Chain { check := false } none
      ((Pipeline.mk [first, second]).runs [onesAt x y, onesAt y z] [errors₁, ∅] none)
      [t₁, t₂] := by
    refine .cons ⟨rfl, h₁⟩ (.cons ⟨?_, h₂⟩ .nil)
    intro link hlink
    obtain rfl : link = ⟨y, y⟩ := List.mem_singleton.mp hlink
    refine ⟨EquationSet.varsOf [Equation.scaled b y z], ?_, ?_, ?_⟩
    · show (second.solver.equations.select none).map EquationSet.varsOf = _
      rw [show second.solver = .scaled b y z from rfl, Solver.select_scaled]
      rfl
    · exact ⟨row₁, (Table.mem_of_get?_eq_some hrow₁)⟩
    · simp [EquationSet.mem_varsOf, Equation.mem_vars_scaled]
  have hfits : (Pipeline.mk [first, second]).Fits [onesAt x y, onesAt y z] [errors₁, ∅] none :=
    ⟨rfl, rfl, by simp⟩
  have hjoins := Table.joins_concat hchain.hasDistinctNames
  refine ⟨_, row₂.inStage 2, hfits.solve_eq_ok_iff.mpr ⟨[t₁, t₂], hchain, hjoins⟩, ?_, hcalculated₂⟩
  rw [hjoins.getInStage? 1]
  simp [hrow₂]

end Scalings

/-- The variable `z` copies `y`, which copies `x`: the error of `x` reaches `z` by two stages. -/
theorem Pipeline.solve_split_copies :
    ∃ (t whole : Table ℝ),
      (Pipeline.scaledTwice (fun _ => 1) (fun _ => 1) "x" "y" "z").solve
        [onesAt "x" "y", onesAt "y" "z"] [(∅ : Point ℝ).insert "x" (1 / 10), ∅] none
        { check := false } = .ok t ∧
      (Solver.scaledTwice (fun _ => 1) (fun _ => 1) "x" "y" "z").solve
        (onesAt "x" "y" ∪ onesAt "y" "z")
        (Solver.suppliedErrors ((∅ : Point ℝ).insert "x" (1 / 10)) ∅ ["y"])
        { check := false } = .ok whole ∧
      ∃ row row', t.getInStage? 2 "z" = some row ∧ whole.get? "z" = some row' ∧
        row'.error ≤ row.error := by
  have hxy : "x" ≠ "y" := by decide
  have hyz : "y" ≠ "z" := by decide
  obtain ⟨t, row, ht, hrow, hcalculated⟩ := Pipeline.exists_scaledTwice (a := fun _ => 1)
    (b := fun _ => 1) hxy hyz (1 / 10) one_ne_zero one_ne_zero
  obtain ⟨whole, hwhole, -, hsecond⟩ := Pipeline.solve_split .ofEquations .ofEquations
    (Solver.select_scaled ..) (Solver.select_scaled ..)
    (Solver.select_scaledTwice (fun _ => 1) (fun _ => 1) "x" "y" "z")
    (by simp [Equation.ignoresExtraKeys_copy]) (by simp)
    (Solver.isSplit_scaled _ hxy hyz (by decide) (1 / 10)) ht
  obtain ⟨row', hrow', -, hle⟩ := hsecond "z" row hrow hcalculated
  exact ⟨t, whole, ht, hwhole, row, row', hrow, hrow', hle⟩

/-- A factor that reads a variable which its equation does not declare: one without that variable,
zero where the variable is one. -/
noncomputable def withoutOne (w : String) (p : Point ℝ) : ℝ := 1 - p.getD w 0

/-- A function that reads a variable of the second stage, which its equation does not declare, finds
it in the whole system only. Both stages succeed; the whole system has the factor zero and is
singular. -/
theorem Pipeline.not_solve_split_of_undeclared :
    Solver.IsSplit [.scaled (withoutOne "w") "x" "y"] [.copy "y" "w"] (onesAt "x" "y")
      (onesAt "y" "w") ((∅ : Point ℝ).insert "x" (1 / 10)) ∅ ["y"] ∧
    (Solver.scaledTwice (withoutOne "w") (fun _ => 1) "x" "y" "w").equations.select none =
      .ok [.scaled (withoutOne "w") "x" "y", .copy "y" "w"] ∧
    (∃ t, (Pipeline.scaledTwice (withoutOne "w") (fun _ => 1) "x" "y" "w").solve
      [onesAt "x" "y", onesAt "y" "w"] [(∅ : Point ℝ).insert "x" (1 / 10), ∅] none
      { check := false } = .ok t) ∧
    ∀ whole, (Solver.scaledTwice (withoutOne "w") (fun _ => 1) "x" "y" "w").solve
      (onesAt "x" "y" ∪ onesAt "y" "w")
      (Solver.suppliedErrors ((∅ : Point ℝ).insert "x" (1 / 10)) ∅ ["y"])
      { check := false } ≠ .ok whole := by
  have hxy : "x" ≠ "y" := by decide
  have hyw : "y" ≠ "w" := by decide
  have hxw : "x" ≠ "w" := by decide
  have hselect := Solver.select_scaledTwice (withoutOne "w") (fun _ => 1) "x" "y" "w"
  refine ⟨Solver.isSplit_scaled _ hxy hyw hxw _, hselect, ?_, fun whole hwhole => ?_⟩
  · have ha : withoutOne "w" (onesAt "x" "y") ≠ 0 := by
      simp [withoutOne, onesAt, Std.ExtTreeMap.getD_insert]
    obtain ⟨t, -, ht, -⟩ := Pipeline.exists_scaledTwice (b := fun _ => 1) hxy hyw (1 / 10) ha
      one_ne_zero
    exact ⟨t, ht⟩
  · let values : Point ℝ := onesAt "x" "y" ∪ onesAt "y" "w"
    let errors := Solver.suppliedErrors ((∅ : Point ℝ).insert "x" (1 / 10)) ∅ ["y"]
    have hx : "x" ∈ values := by simp [values, mem_onesAt]
    have hy : "y" ∈ values := by simp [values, mem_onesAt]
    have hw : "w" ∈ values := by simp [values, mem_onesAt]
    have hone : values["w"]? = some 1 := by
      rw [Std.ExtTreeMap.getElem?_union, onesAt, Std.ExtTreeMap.getElem?_insert_self,
        Option.some_or]
    have hzero : withoutOne "w" values = 0 := by
      simp [withoutOne, Std.ExtTreeMap.getD_eq_getD_getElem?, hone]
    have herrors (v : String) : v ∈ errors ↔ "x" = v := by
      rw [← NameMap.exists_getElem?_iff, Solver.getElem?_suppliedErrors]
      simp [NameMap.exists_getElem?_iff]
    -- The same deviation of `y` and `w` changes neither residual.
    let du : String → ℝ := fun _ => 1
    rw [Solver.solve_eq_of_select hselect] at hwhole
    have hdetermines := (Solver.exists_solveEquations_iff rfl).mp ⟨whole, hwhole⟩
    have hfirst : (Equation.scaled (withoutOne "w") "x" "y").shift values errors du = 0 := by
      rw [Equation.shift_scaled hxy hx hy (by simp [herrors])]
      simp [hzero, herrors]
    have hsecond : (Equation.copy "y" "w").shift values errors du = 0 := by
      rw [Equation.shift_scaled hyw hy hw (by simp [herrors])]
      simp [herrors, du]
    have hunknown : "y" ∈ (Partition.ofEquations
        [.scaled (withoutOne "w") "x" "y", .copy "y" "w"] values errors).unknown :=
      Partition.mem_unknown_ofEquations.mpr ⟨⟨_, List.mem_cons_self,
        Equation.mem_vars_scaled.mpr (.inr rfl)⟩, hy, by simp [herrors]⟩
    have hkernel : ∀ eq ∈ [Equation.scaled (withoutOne "w") "x" "y", .copy "y" "w"],
        eq.shift values errors du = 0 := by
      rintro eq (_ | ⟨_, _ | ⟨_, ⟨⟩⟩⟩)
      · exact hfirst
      · exact hsecond
    exact one_ne_zero (hdetermines.injective du hkernel "y" hunknown)

end ErrorBudget
