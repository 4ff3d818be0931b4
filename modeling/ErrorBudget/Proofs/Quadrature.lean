import ErrorBudget.Proofs.Solver.Deviations

/-!
# Standard deviations

In quadrature the squares of the errors add up. The square of a calculated error is a combination of
the squares of the known errors, and its coefficients are the entries of `|Ju⁻¹| |Jk|`: the
magnitudes of the partial derivatives enter as they are (`sq_error_of_propagate`). They are not
squared, so the combination is not the one of the law of variances, where the coefficient of a
variance is the square of an entry of `Ju⁻¹ Jk` (`not_variances_of_multiple`). The two agree where
that entry is zero or of magnitude one, unless magnitudes add up that would cancel.
-/

set_option autoImplicit false

namespace ErrorBudget

open Matrix

namespace Jacobian

/-- The columns of the known variables, with the rows numbered like the unknown variables. -/
def knownColumns (J : Jacobian ℝ) (square : J.IsSquare) :
    Matrix (Fin J.unknown.length) (Fin J.known.length) ℝ :=
  (J.knownBlock.castRows square.length_eq).toMatrix

/-- The coefficients with which propagation combines the squares of the known errors. -/
noncomputable def magnitudes (J : Jacobian ℝ) (square : J.IsSquare) :
    Matrix (Fin J.unknown.length) (Fin J.known.length) ℝ :=
  (J.squareBlock square)⁻¹.map abs * (J.knownColumns square).map abs

/-- The coefficients of the law of variances: the squares of the derivatives of the unknown
variables by the known ones. -/
noncomputable def squaredDerivatives (J : Jacobian ℝ) (square : J.IsSquare) :
    Matrix (Fin J.unknown.length) (Fin J.known.length) ℝ :=
  ((J.squareBlock square)⁻¹ * J.knownColumns square).map (· ^ 2)

/-- The square of the error in each calculated row of a table is a combination of the squares of the
known errors. -/
def CombinesSquares (J : Jacobian ℝ) (errors : Point ℝ) (t : Table ℝ)
    (coefficients : Matrix (Fin J.unknown.length) (Fin J.known.length) ℝ) : Prop :=
  ∃ row : Fin J.unknown.length → Row ℝ, t.calculated.Perm (List.ofFn row) ∧
    ∀ i, (row i).name = J.unknown.get i ∧ 0 ≤ (row i).error ∧
      (row i).error ^ 2 = ∑ j, coefficients i j * errors.getD (J.known.get j) 0 ^ 2

variable {J : Jacobian ℝ} {square : J.IsSquare}

/-- The inverse that propagation uses is the one of linear algebra. -/
theorem toMatrix_inverse? {B : Mat ℝ J.unknown.length J.unknown.length}
    (hB : J.inverse? square = some B) : B.toMatrix = (J.squareBlock square)⁻¹ :=
  (Matrix.inv_eq_left_inv (inverse?_mul_squareBlock hB)).symm

/-- The weight of an unknown variable in quadrature. -/
theorem quadratureWeight_eq {B : Mat ℝ J.unknown.length J.unknown.length}
    (hB : J.inverse? square = some B) (errors : Point ℝ) {constants : Option (Point ℝ)}
    (hconstants : ∀ x, component constants x = 0) (i : Fin J.unknown.length) :
    (J.unknownWeights square B .quadrature errors constants).get i =
      ∑ j, J.magnitudes square i j * errors.getD (J.known.get j) 0 ^ 2 := by
  have hentry (k : Fin J.unknown.length) : B i k = (J.squareBlock square)⁻¹ i k :=
    congrFun₂ (toMatrix_inverse? hB) i k
  have hknown (k : Fin J.unknown.length) (j : Fin J.known.length) :
      J.knownBlock (k.cast square.length_eq.symm) j = J.knownColumns square k j :=
    (Mat.castRows_apply ..).symm
  rw [unknownWeights_get]
  simp only [knownWeights_get, hconstants, Combination.weigh_zero, add_zero, mul_zero,
    Finset.sum_const_zero, Combination.weigh_quadrature, hentry, hknown]
  -- What remains is to exchange the sums over the equations and over the known variables.
  simp only [magnitudes, mul_apply, map_apply, Finset.mul_sum, Finset.sum_mul]
  rw [Finset.sum_comm]
  refine Finset.sum_congr rfl fun j _ => Finset.sum_congr rfl fun k _ => ?_
  ring

/-- The coefficients of the squares are not negative. -/
theorem magnitudes_nonneg (i : Fin J.unknown.length) (j : Fin J.known.length) :
    0 ≤ J.magnitudes square i j := by
  rw [magnitudes, mul_apply]
  exact Finset.sum_nonneg fun _ _ => mul_nonneg (abs_nonneg _) (abs_nonneg _)

/-- Without constant components all of them are zero. -/
theorem component_eq_zero {constants : Option (Point ℝ)}
    (hconstants : ∀ c ∈ constants, c = ∅) (x : String) : component constants x = 0 := by
  cases constants with
  | none => rfl
  | some c =>
    obtain rfl : c = ∅ := hconstants c rfl
    simp [component]

/-- The error of an unknown variable is the root of its weight. -/
theorem combinesSquares_magnitudes {B : Mat ℝ J.unknown.length J.unknown.length}
    (hB : J.inverse? square = some B) {values errors : Point ℝ} {constants : Option (Point ℝ)}
    (hconstants : ∀ x, component constants x = 0) (k : Vector ℝ J.known.length) :
    J.CombinesSquares errors
      (Table.ofRows
        (rowsAt values true J.unknown
            ((J.unknownWeights square B .quadrature errors constants).map
              Combination.quadrature.unweigh) ++
          rowsAt values false J.known k))
      (J.magnitudes square) := by
  refine ⟨_, calculated_ofRows _ _, ?_⟩
  intro i
  have hweight := quadratureWeight_eq hB errors hconstants i
  have herror : ((J.unknownWeights square B .quadrature errors constants).map
      Combination.quadrature.unweigh).get i =
        √(∑ j, J.magnitudes square i j * errors.getD (J.known.get j) 0 ^ 2) := by
    rw [← hweight]
    exact Vector.getElem_map Combination.quadrature.unweigh i.isLt
  have hnonneg : 0 ≤ ∑ j, J.magnitudes square i j * errors.getD (J.known.get j) 0 ^ 2 :=
    Finset.sum_nonneg fun j _ => mul_nonneg (magnitudes_nonneg i j) (sq_nonneg _)
  refine ⟨rfl, ?_, ?_⟩
  · exact herror ▸ Real.sqrt_nonneg _
  · exact herror ▸ Real.sq_sqrt hnonneg

/-- In quadrature and without constant components, the square of a calculated error is the sum of
the squares of the known errors, each with its entry of `|Ju⁻¹| |Jk|`. -/
theorem sq_error_of_propagate {values errors : Point ℝ} {constants : Option (Point ℝ)}
    {t : Table ℝ} (hconstants : ∀ c ∈ constants, c = ∅)
    (h : J.propagate .quadrature values errors constants = .ok t) :
    ∃ square : J.IsSquare, J.CombinesSquares errors t (J.magnitudes square) := by
  obtain ⟨square, B, hB, -, rfl⟩ := propagate_eq_ok_iff.mp h
  exact ⟨square, combinesSquares_magnitudes hB (component_eq_zero hconstants) _⟩

section Multiple

/-- The Jacobian of `y - c * x`, with `y` unknown. -/
def multiple (c : ℝ) : Jacobian ℝ where
  equations := 1
  unknown := ["y"]
  known := ["x"]
  cells := Mat.ofFn fun _ j => if j.val = 0 then 1 else -c

variable (c : ℝ)

/-- The Jacobian of a multiple is square. -/
theorem isSquare_multiple : (multiple c).IsSquare := rfl

/-- The derivative with respect to the unknown variable is one. -/
theorem squareBlock_multiple : (multiple c).squareBlock (isSquare_multiple c) = 1 := by
  ext i j
  have hi : i.val < 1 := i.isLt
  have hj : j.val < 1 := j.isLt
  have hij : i = j := Fin.ext (by omega)
  have hentry : (multiple c).squareBlock (isSquare_multiple c) i j = if j.val = 0 then 1 else -c :=
    (Mat.castRows_apply ..).trans ((Mat.ofFn_apply ..).trans (Mat.ofFn_apply ..))
  rw [hentry, if_pos (by omega), hij, one_apply_eq]

/-- The derivative with respect to the known variable is the negated factor. -/
theorem knownColumns_multiple (i : Fin (multiple c).unknown.length)
    (j : Fin (multiple c).known.length) :
    (multiple c).knownColumns (isSquare_multiple c) i j = -c :=
  calc (multiple c).knownColumns (isSquare_multiple c) i j
    _ = if 1 + j.val = 0 then 1 else -c :=
        (Mat.castRows_apply ..).trans ((Mat.ofFn_apply ..).trans (Mat.ofFn_apply ..))
    _ = -c := if_neg (by omega)

/-- The coefficient of the square is the magnitude of the factor. -/
theorem magnitudes_multiple (i : Fin (multiple c).unknown.length)
    (j : Fin (multiple c).known.length) :
    (multiple c).magnitudes (isSquare_multiple c) i j = |c| := by
  have hone : (1 : Matrix (Fin (multiple c).unknown.length) (Fin (multiple c).unknown.length) ℝ).map
      abs = 1 := by
    rw [Matrix.map_one _ abs_zero abs_one]
  rw [magnitudes, squareBlock_multiple, inv_one, hone, Matrix.one_mul, map_apply,
    knownColumns_multiple, abs_neg]

/-- The squared derivative is the square of the factor. -/
theorem squaredDerivatives_multiple (i : Fin (multiple c).unknown.length)
    (j : Fin (multiple c).known.length) :
    (multiple c).squaredDerivatives (isSquare_multiple c) i j = c ^ 2 := by
  rw [squaredDerivatives, squareBlock_multiple, inv_one, Matrix.one_mul, map_apply,
    knownColumns_multiple, neg_sq]

/-- Over exact numbers the column of `y` has an inverse. -/
theorem inverse?_multiple :
    ∃ B, (multiple c).inverse? (isSquare_multiple c) = some B := by
  rw [exists_inverse?_iff, squareBlock_multiple, det_one]
  exact one_ne_zero

/-- There is one calculated row, the one of `y`. -/
theorem CombinesSquares.exists_row {c : ℝ} {errors : Point ℝ} {t : Table ℝ} {a : ℝ}
    {coefficients : Matrix (Fin (multiple c).unknown.length) (Fin (multiple c).known.length) ℝ}
    (h : (multiple c).CombinesSquares errors t coefficients) (ha : ∀ i j, coefficients i j = a) :
    ∃ row, t.calculated = [row] ∧ row.name = "y" ∧
      row.error ^ 2 = a * errors.getD "x" 0 ^ 2 := by
  obtain ⟨row, hrow, herror⟩ := h
  let y : Fin (multiple c).unknown.length := ⟨0, Nat.one_pos⟩
  obtain ⟨hname, -, hsum⟩ := herror y
  simp only [ha] at hsum
  exact ⟨row y, List.perm_singleton.mp hrow, hname, hsum.trans (Fin.sum_univ_one _)⟩

/-- The standard deviation of `3 * x` is computed where `x = 2` has the standard deviation 0.1. -/
theorem exists_propagate_multiple :
    ∃ t, (multiple 3).propagate .quadrature (((∅ : Point ℝ).insert "x" 2).insert "y" 6)
        ((∅ : Point ℝ).insert "x" (1 / 10)) none = .ok t ∧
      (multiple 3).CombinesSquares ((∅ : Point ℝ).insert "x" (1 / 10)) t
        ((multiple 3).magnitudes (isSquare_multiple 3)) := by
  obtain ⟨B, hB⟩ := inverse?_multiple 3
  refine ⟨_, propagate_eq_ok_iff.mpr ⟨isSquare_multiple 3, B, hB, ?_, rfl⟩,
    combinesSquares_magnitudes hB (fun _ => rfl) _⟩
  simp [columns, multiple]

end Multiple

/-- The square of the standard deviation of `3 * x` is three times that of `x`. -/
theorem sq_error_of_propagate_multiple :
    ∃ t, (multiple 3).propagate .quadrature (((∅ : Point ℝ).insert "x" 2).insert "y" 6)
        ((∅ : Point ℝ).insert "x" (1 / 10)) none = .ok t ∧
      (∀ c ∈ (none : Option (Point ℝ)), c = ∅) ∧
      ∃ row, t.calculated = [row] ∧ row.name = "y" ∧ row.error ^ 2 = 3 / 100 := by
  obtain ⟨t, ht, -⟩ := exists_propagate_multiple
  have hnone : ∀ c ∈ (none : Option (Point ℝ)), c = ∅ := by simp
  obtain ⟨square, hcombines⟩ := sq_error_of_propagate hnone ht
  obtain ⟨row, hrow, hname, herror⟩ := hcombines.exists_row (magnitudes_multiple 3)
  refine ⟨t, ht, hnone, row, hrow, hname, herror.trans ?_⟩
  norm_num

/-- Propagation does not obey the law of variances, by which the standard deviation of `3 * x` is
three times that of `x`. -/
theorem not_variances_of_multiple :
    ¬∀ (J : Jacobian ℝ) (values errors : Point ℝ) (t : Table ℝ),
      J.propagate .quadrature values errors none = .ok t →
        ∃ square : J.IsSquare, J.CombinesSquares errors t (J.squaredDerivatives square) := by
  intro h
  obtain ⟨t, ht, hcombines⟩ := exists_propagate_multiple
  obtain ⟨square, hvariances⟩ := h _ _ _ t ht
  obtain ⟨row, hrow, -, herror⟩ := hcombines.exists_row (magnitudes_multiple 3)
  obtain ⟨row', hrow', -, herror'⟩ := hvariances.exists_row (squaredDerivatives_multiple 3)
  -- The table has one calculated row, so both combinations are about the same error.
  obtain rfl : row = row' := List.singleton_inj.mp (hrow.symm.trans hrow')
  rw [herror] at herror'
  norm_num at herror'

end Jacobian

end ErrorBudget
