import ErrorBudget.Proofs.Exact.Rewriting

/-!
# Larger and smaller errors

Over exact numbers, propagation sees the errors and the constant components only through their
magnitudes. Larger ones never make an error of the table smaller, their signs do not matter, and a
common factor comes out of the table with its magnitude (`Jacobian.propagate_of_magnitudes`). This
holds in both ways of combining errors.

The weight of an error grows with its magnitude and turns factors into factors
(`Combination.weigh_le_weigh`, `Combination.weigh_mul`). The weights of the table are sums of such
weights with coefficients that are not negative, and what is done to a weight at the end undoes what
the weighing did to a factor (`Combination.unweigh_weigh_mul`).
-/

set_option autoImplicit false

namespace ErrorBudget

/-- The same quantities, all multiplied by one factor. -/
def Point.times (p : Point ℝ) (k : ℝ) : Point ℝ :=
  p.inUnits fun _ => k

/-- A row and another one for the same variable with the same value, whose errors are related. -/
structure Row.Matches (R : ℝ → ℝ → Prop) (row row' : Row ℝ) : Prop where
  name : row'.name = row.name
  value : row'.value = row.value
  isCalculated : row'.isCalculated = row.isCalculated
  stage : row'.stage = row.stage
  error : R row.error row'.error

/-- Tables with matching rows, one by one. -/
def Table.Matches (R : ℝ → ℝ → Prop) (t t' : Table ℝ) : Prop :=
  List.Forall₂ (Row.Matches R) t.rows t'.rows

namespace Combination

variable (how : Combination) {x y : ℝ}

/-- The larger error has the larger weight, whatever the signs. -/
theorem weigh_le_weigh (h : |x| ≤ |y|) : how.weigh x ≤ how.weigh y := by
  cases how with
  | linear => exact h
  | quadrature => exact abs_le_iff_mul_self_le.mp h

/-- The weight of a multiple is the product of the weights. -/
theorem weigh_mul (k x : ℝ) : how.weigh (k * x) = how.weigh k * how.weigh x := by
  cases how with
  | linear => exact abs_mul k x
  | quadrature => exact mul_mul_mul_comm k x k x

/-- A larger weight stands for a larger error. -/
theorem unweigh_le_unweigh (h : x ≤ y) : how.unweigh x ≤ how.unweigh y := by
  cases how with
  | linear => exact h
  | quadrature => exact Real.sqrt_le_sqrt h

/-- A factor that has been weighed comes out with its magnitude. -/
theorem unweigh_weigh_mul (k x : ℝ) : how.unweigh (how.weigh k * x) = |k| * how.unweigh x := by
  cases how with
  | linear => rfl
  | quadrature =>
    calc √(k * k * x)
      _ = √(k * k) * √x := Real.sqrt_mul (mul_self_nonneg k) x
      _ = |k| * √x := by rw [Real.sqrt_mul_self_eq_abs]

end Combination

section Rows

variable {R : ℝ → ℝ → Prop}

/-- The place of a row depends on its variable and stage only. -/
theorem Row.forall₂_insert {row row' : Row ℝ} {rows rows' : List (Row ℝ)}
    (hrow : row.Matches R row') (hrows : List.Forall₂ (Row.Matches R) rows rows') :
    List.Forall₂ (Row.Matches R) (Row.insert row rows) (Row.insert row' rows') := by
  induction hrows with
  | nil => exact .cons hrow .nil
  | @cons r r' rows rows' hr hrest ih =>
    have hle : row'.le r' = row.le r := by
      rw [Row.le, Row.le, hrow.name, hrow.stage, hr.name, hr.stage]
    rw [Row.insert, Row.insert, hle]
    split_ifs
    · exact .cons hrow (.cons hr hrest)
    · exact .cons hr ih

/-- Tables that are made of matching rows match. -/
theorem Table.matches_ofRows {rows rows' : List (Row ℝ)}
    (h : List.Forall₂ (Row.Matches R) rows rows') :
    (Table.ofRows rows).Matches R (Table.ofRows rows') := by
  unfold Table.Matches Table.ofRows
  induction h with
  | nil => exact .nil
  | cons hrow _ ih => exact Row.forall₂_insert hrow ih

end Rows

namespace Jacobian

variable {J : Jacobian ℝ} {how : Combination} {values errors errors' : Point ℝ}
  {constants constants' : Option (Point ℝ)} {t : Table ℝ}

/-- Rows with related errors match. -/
theorem forall₂_rowsAt {R : ℝ → ℝ → Prop} {isCalculated : Bool} {names : List String}
    {u u' : Vector ℝ names.length} (h : ∀ i, R (u.get i) (u'.get i)) :
    List.Forall₂ (Row.Matches R) (rowsAt values isCalculated names u)
      (rowsAt values isCalculated names u') := by
  refine List.forall₂_iff_get.mpr ⟨by simp [rowsAt], fun i hi hi' => ?_⟩
  have hi : i < names.length := by simpa [rowsAt] using hi
  simp only [rowsAt, List.get_eq_getElem, List.getElem_ofFn]
  exact ⟨rfl, rfl, rfl, rfl, h ⟨i, hi⟩⟩

/-- Whether there is a table does not depend on the errors, and its rows are related as the weights
are. -/
theorem exists_matches_of_propagate {R : ℝ → ℝ → Prop}
    (h : J.propagate how values errors constants = .ok t)
    (hunknown : ∀ square B i,
      R (how.unweigh ((J.unknownWeights square B how errors constants).get i))
        (how.unweigh ((J.unknownWeights square B how errors' constants').get i)))
    (hknown : ∀ j, R (how.unweigh ((J.knownWeights how errors constants).get j))
      (how.unweigh ((J.knownWeights how errors' constants').get j))) :
    ∃ t', J.propagate how values errors' constants' = .ok t' ∧ t.Matches R t' := by
  obtain ⟨square, B, hB, hvalues, rfl⟩ := propagate_eq_ok_iff.mp h
  have hmap {n : ℕ} (u : Vector ℝ n) (i : Fin n) :
      (u.map how.unweigh).get i = how.unweigh (u.get i) :=
    Vector.getElem_map how.unweigh i.isLt
  refine ⟨_, propagate_eq_ok_iff.mpr ⟨square, B, hB, hvalues, rfl⟩, Table.matches_ofRows ?_⟩
  refine List.rel_append (forall₂_rowsAt fun i => ?_) (forall₂_rowsAt fun j => ?_)
  · rw [hmap, hmap]
    exact hunknown square B i
  · rw [hmap, hmap]
    exact hknown j

section Magnitudes

variable (herrors : ∀ x ∈ J.columns, |errors.getD x 0| ≤ |errors'.getD x 0|)
  (hconstants : ∀ x ∈ J.columns, |component constants x| ≤ |component constants' x|)

include herrors hconstants

/-- Larger errors give the known variables larger weights. -/
theorem knownWeights_le (j : Fin J.known.length) : (J.knownWeights how errors constants).get j ≤
    (J.knownWeights how errors' constants').get j := by
  have hcolumn : J.known.get j ∈ J.columns := List.mem_append_right _ (List.get_mem ..)
  rw [knownWeights_get, knownWeights_get]
  exact add_le_add (how.weigh_le_weigh (herrors _ hcolumn))
    (how.weigh_le_weigh (hconstants _ hcolumn))

/-- Every coefficient is a magnitude, so larger weights have larger sums. -/
theorem unknownWeights_le (square : J.IsSquare) (B : Mat ℝ J.unknown.length J.unknown.length)
    (i : Fin J.unknown.length) : (J.unknownWeights square B how errors constants).get i ≤
      (J.unknownWeights square B how errors' constants').get i := by
  have hcomponent (j : Fin J.unknown.length) : how.weigh (component constants (J.unknown.get j)) ≤
      how.weigh (component constants' (J.unknown.get j)) :=
    how.weigh_le_weigh (hconstants _ (List.mem_append_left _ (List.get_mem ..)))
  rw [unknownWeights_get, unknownWeights_get]
  gcongr with k _ j _ j _
  · exact knownWeights_le herrors hconstants j
  · exact hcomponent j

end Magnitudes

section Factor

variable (k : ℝ)

/-- A multiple of the constant components. -/
theorem component_times (constants : Option (Point ℝ)) (x : String) :
    component (constants.map (·.times k)) x = k * component constants x :=
  component_inUnits constants x

/-- A multiple of all errors multiplies the weights of the known variables. -/
theorem knownWeights_times (j : Fin J.known.length) :
    (J.knownWeights how (errors.times k) (constants.map (·.times k))).get j =
      how.weigh k * (J.knownWeights how errors constants).get j := by
  rw [knownWeights_get, knownWeights_get, Point.times, Point.getD_inUnits, component_times,
    how.weigh_mul, how.weigh_mul, mul_add]

/-- A multiple of all errors multiplies the weights of the unknown variables. -/
theorem unknownWeights_times (square : J.IsSquare) (B : Mat ℝ J.unknown.length J.unknown.length)
    (i : Fin J.unknown.length) :
    (J.unknownWeights square B how (errors.times k) (constants.map (·.times k))).get i =
      how.weigh k * (J.unknownWeights square B how errors constants).get i := by
  rw [unknownWeights_get, unknownWeights_get]
  simp only [knownWeights_times, component_times, how.weigh_mul, Finset.mul_sum, mul_add,
    mul_left_comm]

end Factor

/-- Errors and components of the same magnitude give the same table. -/
theorem propagate_of_abs_eq (h : J.propagate how values errors constants = .ok t)
    (herrors : ∀ x ∈ J.columns, |errors'.getD x 0| = |errors.getD x 0|)
    (hconstants : ∀ x ∈ J.columns, |component constants' x| = |component constants x|) :
    J.propagate how values errors' constants' = .ok t := by
  obtain ⟨square, B, hB, hvalues, rfl⟩ := propagate_eq_ok_iff.mp h
  have hknown : J.knownWeights how errors' constants' = J.knownWeights how errors constants :=
    Vector.ext fun j hj => le_antisymm
      (knownWeights_le (fun x hx => (herrors x hx).le) (fun x hx => (hconstants x hx).le) ⟨j, hj⟩)
      (knownWeights_le (fun x hx => (herrors x hx).ge) (fun x hx => (hconstants x hx).ge) ⟨j, hj⟩)
  have hunknown : J.unknownWeights square B how errors' constants' =
      J.unknownWeights square B how errors constants :=
    Vector.ext fun i hi => le_antisymm
      (unknownWeights_le (fun x hx => (herrors x hx).le) (fun x hx => (hconstants x hx).le) square B
        ⟨i, hi⟩)
      (unknownWeights_le (fun x hx => (herrors x hx).ge) (fun x hx => (hconstants x hx).ge) square B
        ⟨i, hi⟩)
  exact propagate_eq_ok_iff.mpr ⟨square, B, hB, hvalues, by rw [hknown, hunknown]⟩

/-- Propagation goes by magnitudes. With errors and constant components that are at least as large,
whatever their signs, there is a table whose errors are at least as large, row by row. With errors
and components of the same magnitude it is the same table. With all of them multiplied by a factor,
every error of the table is multiplied by its magnitude. -/
theorem propagate_of_magnitudes (h : J.propagate how values errors constants = .ok t) :
    (∀ (errors' : Point ℝ) (constants' : Option (Point ℝ)),
      (∀ x ∈ J.columns, |errors.getD x 0| ≤ |errors'.getD x 0|) →
      (∀ x ∈ J.columns, |component constants x| ≤ |component constants' x|) →
      ∃ t', J.propagate how values errors' constants' = .ok t' ∧ t.Matches (· ≤ ·) t') ∧
    (∀ (errors' : Point ℝ) (constants' : Option (Point ℝ)),
      (∀ x ∈ J.columns, |errors'.getD x 0| = |errors.getD x 0|) →
      (∀ x ∈ J.columns, |component constants' x| = |component constants x|) →
      J.propagate how values errors' constants' = .ok t) ∧
    ∀ k : ℝ, ∃ t', J.propagate how values (errors.times k) (constants.map (·.times k)) = .ok t' ∧
      t.Matches (fun e e' => e' = |k| * e) t' := by
  refine ⟨?_, ?_, ?_⟩
  · intro errors' constants' herrors hconstants
    refine exists_matches_of_propagate h (fun square B i => ?_) fun j => ?_
    · exact how.unweigh_le_unweigh (unknownWeights_le herrors hconstants square B i)
    · exact how.unweigh_le_unweigh (knownWeights_le herrors hconstants j)
  · intro errors' constants' herrors hconstants
    exact propagate_of_abs_eq h herrors hconstants
  · intro k
    refine exists_matches_of_propagate h (fun square B i => ?_) fun j => ?_
    · rw [unknownWeights_times, how.unweigh_weigh_mul]
    · rw [knownWeights_times, how.unweigh_weigh_mul]

/-- The errors of `x` and `y` and the component of `a` are enlarged, given other signs, and doubled
with the opposite sign. -/
theorem propagate_of_magnitudes_measured :
    let errors (ex ey : ℝ) : Point ℝ := ((∅ : Point ℝ).insert "x" ex).insert "y" ey
    let constants (ca : ℝ) : Option (Point ℝ) := some ((∅ : Point ℝ).insert "a" ca)
    ∃ t, measured.propagate .quadrature measurement (errors (1 / 10) (1 / 5)) (constants (1 / 20)) =
        .ok t ∧
      (∃ t', measured.propagate .quadrature measurement (errors (-3 / 10) (1 / 5))
          (constants (-1 / 10)) = .ok t' ∧ t.Matches (· ≤ ·) t') ∧
      measured.propagate .quadrature measurement (errors (-1 / 10) (1 / 5)) (constants (-1 / 20)) =
        .ok t ∧
      ∃ t', measured.propagate .quadrature measurement ((errors (1 / 10) (1 / 5)).times (-2))
          ((constants (1 / 20)).map (·.times (-2))) = .ok t' ∧
        t.Matches (fun e e' => e' = 2 * e) t' := by
  intro errors constants
  obtain ⟨t, ht⟩ : ∃ t, measured.propagate .quadrature measurement (errors (1 / 10) (1 / 5))
      (constants (1 / 20)) = .ok t := by
    obtain ⟨_, hlinear⟩ := exists_propagate_measured
    obtain ⟨square, B, hB, hvalues, -⟩ := propagate_eq_ok_iff.mp hlinear
    exact ⟨_, propagate_eq_ok_iff.mpr ⟨square, B, hB, hvalues, rfl⟩⟩
  have herrors (ex ey : ℝ) (x : String) : (errors ex ey).getD x 0 =
      if x = "y" then ey else if x = "x" then ex else 0 := by
    simp only [errors, Std.ExtTreeMap.getD_insert]
    grind
  have hconstants (ca : ℝ) (x : String) :
      component (constants ca) x = if x = "a" then ca else 0 := by
    simp only [component, constants, Option.elim_some, Std.ExtTreeMap.getD_insert]
    grind
  obtain ⟨hlarger, hsigns, hfactor⟩ := propagate_of_magnitudes ht
  refine ⟨t, ht, hlarger _ _ ?_ ?_, hsigns _ _ ?_ ?_, by simpa using hfactor (-2)⟩
  · intro x _
    rw [herrors, herrors]
    split_ifs <;> norm_num
  · intro x _
    rw [hconstants, hconstants]
    split_ifs <;> norm_num
  · intro x _
    rw [herrors, herrors]
    split_ifs <;> norm_num
  · intro x _
    rw [hconstants, hconstants]
    split_ifs <;> norm_num

end Jacobian

end ErrorBudget
