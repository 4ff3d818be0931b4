import ErrorBudget.Proofs.Exact.Elimination
import ErrorBudget.Proofs.Exact.Propagation
import ErrorBudget.Proofs.Propagation

/-!
# Worst cases of linear propagation

To first order, deviations `dk` of the known variables and sources `c` at the unknown ones move the
unknown variables by the solution `du` of `Ju du + Jk dk = Ju c`. Whatever the signs, no solution
exceeds the errors that linear propagation reports, provided the deviations and the sources stay
within the given errors and constant components (`abs_le_error_of_propagate`).

The bound is the one of a linear system whose coefficients are all taken with their magnitudes
(`abs_solution_le`); the computed inverse is an inverse for every number of equations.
-/

set_option autoImplicit false

namespace ErrorBudget

open Matrix

section LinearSystem

variable {m n : ℕ}

/-- An entry of a product is at most the product of the magnitudes. -/
theorem abs_mulVec_le (A : Matrix (Fin m) (Fin n) ℝ) {x bound : Fin n → ℝ}
    (hx : ∀ j, |x j| ≤ bound j) (i : Fin m) : |(A *ᵥ x) i| ≤ ∑ j, |A i j| * bound j :=
  calc |∑ j, A i j * x j|
    _ ≤ ∑ j, |A i j * x j| := Finset.abs_sum_le_sum_abs _ _
    _ = ∑ j, |A i j| * |x j| := Finset.sum_congr rfl fun _ _ => abs_mul _ _
    _ ≤ ∑ j, |A i j| * bound j := by
        gcongr with j
        exact hx j

/-- Every solution of a linear system with bounded sources is bounded, however the signs fall. -/
theorem abs_solution_le {inverse A : Matrix (Fin n) (Fin n) ℝ} {K : Matrix (Fin n) (Fin m) ℝ}
    (hinverse : inverse * A = 1) {du c cbound : Fin n → ℝ} {dk kbound : Fin m → ℝ}
    (hdk : ∀ j, |dk j| ≤ kbound j) (hc : ∀ j, |c j| ≤ cbound j)
    (hsolution : A *ᵥ du + K *ᵥ dk = A *ᵥ c) (i : Fin n) :
    |du i| ≤ ∑ k, |inverse i k| * (∑ j, |K k j| * kbound j + ∑ j, |A k j| * cbound j) := by
  have hdu : du = inverse *ᵥ (A *ᵥ c - K *ᵥ dk) := by
    rw [← hsolution, add_sub_cancel_right, mulVec_mulVec, hinverse, one_mulVec]
  rw [hdu]
  refine abs_mulVec_le inverse (fun k => ?_) i
  calc |(A *ᵥ c) k - (K *ᵥ dk) k|
    _ ≤ |(A *ᵥ c) k| + |(K *ᵥ dk) k| := abs_sub _ _
    _ ≤ ∑ j, |A k j| * cbound j + ∑ j, |K k j| * kbound j :=
        add_le_add (abs_mulVec_le A hc k) (abs_mulVec_le K hdk k)
    _ = ∑ j, |K k j| * kbound j + ∑ j, |A k j| * cbound j := add_comm _ _

end LinearSystem

namespace Jacobian

/-- The inverse that propagation uses is an inverse of the columns of the unknown variables. -/
theorem inverse?_mul {J : Jacobian ℝ} {square : J.IsSquare}
    {inverse : Mat ℝ J.unknown.length J.unknown.length} (h : J.inverse? square = some inverse) :
    inverse.toMatrix * J.unknownBlock.toMatrix.submatrix (Fin.cast square.symm) id = 1 := by
  have hequations : J.equations = J.unknown.length := square
  rw [← Mat.toMatrix_castRows hequations]
  exact Mat.inverse?_mul (Option.filter_eq_some_iff.mp h).1

/-- No deviation within the given errors moves an unknown variable by more than the weight that
linear propagation gives it. -/
theorem abs_le_unknownWeights {J : Jacobian ℝ} {square : J.IsSquare}
    {inverse : Mat ℝ J.unknown.length J.unknown.length}
    (hinverse : J.inverse? square = some inverse) {errors : Point ℝ}
    {constants : Option (Point ℝ)} {dk : Fin J.known.length → ℝ}
    {c du : Fin J.unknown.length → ℝ}
    (hdk : ∀ j, |dk j| ≤
      |errors.getD (J.known.get j) 0| + |component constants (J.known.get j)|)
    (hc : ∀ i, |c i| ≤ |component constants (J.unknown.get i)|)
    (hsolution : J.unknownBlock.toMatrix *ᵥ du + J.knownBlock.toMatrix *ᵥ dk =
      J.unknownBlock.toMatrix *ᵥ c) (i : Fin J.unknown.length) :
    |du i| ≤ (J.unknownWeights square inverse .linear errors constants).get i := by
  -- The inverse numbers the equations like the unknown variables.
  have hrows := congrArg (fun v => v ∘ Fin.cast square.symm) hsolution
  have hbound := abs_solution_le (inverse?_mul hinverse)
    (K := J.knownBlock.toMatrix.submatrix (Fin.cast square.symm) id) hdk hc hrows i
  rw [unknownWeights_get]
  simp only [knownWeights_get]
  exact hbound

/-- Linear propagation reports worst cases. Let the known variables deviate by at most their errors
and constant components together, and let each unknown variable have a source of at most its
constant component. Then a solution of the linearised equations moves no unknown variable by more
than the error in its row. -/
theorem abs_le_error_of_propagate {J : Jacobian ℝ} {values errors : Point ℝ}
    {constants : Option (Point ℝ)} {t : Table ℝ}
    (h : J.propagate .linear values errors constants = .ok t) :
    ∃ row : Fin J.unknown.length → Row ℝ, t.calculated.Perm (List.ofFn row) ∧
      (∀ i, (row i).name = J.unknown.get i) ∧
      ∀ (dk : Fin J.known.length → ℝ) (c du : Fin J.unknown.length → ℝ),
        (∀ j, |dk j| ≤ |errors.getD (J.known.get j) 0| + |component constants (J.known.get j)|) →
        (∀ i, |c i| ≤ |component constants (J.unknown.get i)|) →
        J.unknownBlock.toMatrix *ᵥ du + J.knownBlock.toMatrix *ᵥ dk =
          J.unknownBlock.toMatrix *ᵥ c →
        ∀ i, |du i| ≤ (row i).error := by
  obtain ⟨square, inverse, hinverse, -, rfl⟩ := propagate_eq_ok_iff.mp h
  refine ⟨_, calculated_ofRows _ _, fun _ => rfl, ?_⟩
  intro dk c du hdk hc hsolution i
  have hbound := abs_le_unknownWeights hinverse hdk hc hsolution i
  -- Under linear propagation the reported error is the weight itself.
  exact hbound.trans_eq (Vector.getElem_map Combination.linear.unweigh i.isLt).symm

/-- The Jacobian of `y - x`, with `y` unknown. -/
def difference : Jacobian ℝ where
  equations := 1
  unknown := ["y"]
  known := ["x"]
  cells := Mat.ofFn fun _ j => if j.val = 0 then 1 else -1

/-- The Jacobian of the difference is square. -/
theorem isSquare_difference : difference.IsSquare := rfl

/-- The derivative with respect to the unknown variable is one. -/
theorem unknownBlock_difference (i : Fin difference.equations) (j : Fin difference.unknown.length) :
    difference.unknownBlock i j = 1 :=
  calc difference.unknownBlock i j
    _ = difference.cells i (j.castAdd difference.known.length) := Mat.ofFn_apply ..
    _ = _ := Mat.ofFn_apply ..
    _ = 1 := if_pos (Nat.lt_one_iff.mp j.isLt)

/-- The derivative with respect to the known variable is minus one. -/
theorem knownBlock_difference (i : Fin difference.equations) (j : Fin difference.known.length) :
    difference.knownBlock i j = -1 :=
  calc difference.knownBlock i j
    _ = difference.cells i (j.natAdd difference.unknown.length) := Mat.ofFn_apply ..
    _ = _ := Mat.ofFn_apply ..
    _ = -1 := if_neg (Nat.ne_of_gt (Nat.lt_of_lt_of_le Nat.one_pos (Nat.le_add_right 1 j)))

/-- The column of the unknown variable of `y - x` has an inverse. -/
theorem inverse?_difference :
    ∃ inverse, difference.inverse? isSquare_difference = some inverse := by
  have hone : (difference.unknownBlock.castRows rfl : Mat ℝ 1 1) 0 0 = 1 :=
    (Mat.castRows_apply ..).trans (unknownBlock_difference ..)
  have hinverse : Mat.inverseOne? (difference.unknownBlock.castRows rfl) =
      some (Mat.ofFn fun _ _ => 1) := by
    rw [Mat.inverseOne?, hone]
    simp
  refine ⟨Mat.ofFn fun _ _ => 1, Option.filter_eq_some_iff.mpr ⟨hinverse, ?_⟩⟩
  simp only [Mat.all, Vector.all_eq_true]
  exact fun _ _ _ _ => rfl

/-- A known variable that deviates by 0.3 and a source of 0.05 may add up to a deviation of 0.35. -/
theorem abs_le_error_of_difference :
    ∃ t, difference.propagate .linear (((∅ : Point ℝ).insert "x" 1).insert "y" 1)
        ((∅ : Point ℝ).insert "x" (1 / 10))
        (some (((∅ : Point ℝ).insert "x" (1 / 5)).insert "y" (1 / 20))) = .ok t ∧
      ∃ row ∈ t.calculated, row.name = "y" ∧ (7 / 20 : ℝ) ≤ row.error := by
  obtain ⟨t, ht⟩ : ∃ t, difference.propagate .linear (((∅ : Point ℝ).insert "x" 1).insert "y" 1)
      ((∅ : Point ℝ).insert "x" (1 / 10))
      (some (((∅ : Point ℝ).insert "x" (1 / 5)).insert "y" (1 / 20))) = .ok t := by
    obtain ⟨inverse, hinverse⟩ := inverse?_difference
    refine ⟨_, propagate_eq_ok_iff.mpr ⟨isSquare_difference, inverse, hinverse, ?_, rfl⟩⟩
    simp [columns, difference]
  obtain ⟨row, hrow, hname, hbound⟩ := abs_le_error_of_propagate ht
  let y : Fin difference.unknown.length := ⟨0, Nat.one_pos⟩
  refine ⟨t, ht, row y, hrow.symm.subset (by simp), hname y, (le_abs_self _).trans
    (hbound (fun _ => 3 / 10) (fun _ => 1 / 20) (fun _ => 7 / 20) ?_ ?_ ?_ y)⟩
  · intro j
    fin_cases j
    have hname : "y" ≠ "x" := by decide
    norm_num [difference, component, Std.ExtTreeMap.getD_insert, hname]
  · intro i
    fin_cases i
    norm_num [difference, component, Std.ExtTreeMap.getD_insert]
  · ext i
    simp only [Pi.add_apply, mulVec, dotProduct, Mat.toMatrix_apply, unknownBlock_difference,
      knownBlock_difference]
    norm_num [difference]

end Jacobian

end ErrorBudget
