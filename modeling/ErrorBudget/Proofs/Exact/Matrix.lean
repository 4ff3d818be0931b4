import ErrorBudget.Mat.Inverse
import ErrorBudget.Proofs.Exact.Scalar
import Mathlib.LinearAlgebra.Matrix.Adjugate
import Mathlib.Tactic.FinCases

/-!
# Exact matrices

Over exact numbers a matrix is one of linear algebra (`Mat.toMatrix`), sums and products are the
usual ones, and the inverses of up to four rows, which are written out as quotients of minors by the
determinant, are the adjugate over the determinant (`inverseOne?_mul` to `inverseFour?_mul`).
-/

set_option autoImplicit false

namespace ErrorBudget

namespace Mat

open Matrix

section View

variable {α : Type} {m n : ℕ}

/-- A matrix as a function of row and column, with the operations of linear algebra. -/
def toMatrix (A : Mat α m n) : Matrix (Fin m) (Fin n) α :=
  Matrix.of fun i j => A i j

/-- The entries of a matrix are those of the matrix of linear algebra. -/
@[simp] theorem toMatrix_apply (A : Mat α m n) (i : Fin m) (j : Fin n) :
    A.toMatrix i j = A i j := rfl

/-- An entry of a matrix to whose entries a function is applied. -/
@[simp] theorem map_apply {β : Type} (f : α → β) (A : Mat α m n) (i : Fin m) (j : Fin n) :
    A.map f i j = f (A i j) := by
  simp [map]

/-- An entry of a matrix whose rows are counted in another way. -/
@[simp] theorem castRows_apply {m' : ℕ} (h : m = m') (A : Mat α m n) (i : Fin m') (j : Fin n) :
    A.castRows h i j = A (i.cast h.symm) j := by
  simp [castRows]

/-- Renaming the number of rows moves no row. -/
theorem toMatrix_castRows {m' : ℕ} (h : m = m') (A : Mat α m n) :
    (A.castRows h).toMatrix = A.toMatrix.submatrix (Fin.cast h.symm) id := by
  ext i j
  simp

variable [Scalar α]

/-- An entry of the product of a matrix and a column. -/
theorem mulVec_get_eq_total (A : Mat α m n) (x : Vector α n) (i : Fin m) :
    (A.mulVec x).get i = total ((List.finRange n).map fun j => A i j * x.get j) :=
  Vector.getElem_ofFn i.isLt

/-- An entry of the sum of two columns. -/
theorem addVec_get (x y : Vector α n) (i : Fin n) : (addVec x y).get i = x.get i + y.get i :=
  Vector.getElem_ofFn i.isLt

end View

section Sums

variable {m n : ℕ}

/-- An exact sum does not depend on where it starts. -/
theorem total_eq_sum (l : List ℝ) : total l = l.sum := by
  cases l with
  | nil => rfl
  | cons x xs => exact List.foldl_eq_apply_foldr

/-- An entry of the exact product of a matrix and a column. -/
theorem mulVec_get (A : Mat ℝ m n) (x : Vector ℝ n) (i : Fin m) :
    (A.mulVec x).get i = ∑ j, A i j * x.get j := by
  rw [mulVec_get_eq_total, total_eq_sum, Fin.sum_univ_def]

end Sums

section SmallInverses

/-- The adjugate divided by a determinant that is not zero is an inverse. -/
theorem dividedBy?_mul {n : ℕ} {A B : Mat ℝ n n} {det : ℝ} {f : Fin n → Fin n → ℝ}
    (hdet : det = A.toMatrix.det) (hf : ∀ i j, f i j = A.toMatrix.adjugate i j)
    (h : dividedBy? det f = some B) : B.toMatrix * A.toMatrix = 1 := by
  unfold dividedBy? at h
  split_ifs at h with hzero
  have hne : det ≠ 0 := by simpa using hzero
  have hB : B.toMatrix = det⁻¹ • A.toMatrix.adjugate := by
    ext i j
    rw [← Option.some.inj h, toMatrix_apply, ofFn_apply, hf, Matrix.smul_apply, smul_eq_mul,
      inv_mul_eq_div]
  rw [hB, Matrix.smul_mul, Matrix.adjugate_mul, ← hdet, smul_smul, inv_mul_cancel₀ hne, one_smul]

/-- Only a determinant of zero divides nothing. -/
theorem dividedBy?_eq_none_iff {n : ℕ} {det : ℝ} {f : Fin n → Fin n → ℝ} :
    dividedBy? det f = none ↔ det = 0 := by
  unfold dividedBy?
  split_ifs with hzero
  · simpa using hzero
  · simpa using hzero

/-- What is found for a matrix of one row is an inverse. -/
theorem inverseOne?_mul {A B : Mat ℝ 1 1} (h : inverseOne? A = some B) :
    B.toMatrix * A.toMatrix = 1 := by
  unfold inverseOne? at h
  split_ifs at h with hzero
  have hne : A 0 0 ≠ 0 := by simpa using hzero
  ext i j
  fin_cases i
  fin_cases j
  simp [← Option.some.inj h, Matrix.mul_apply, hne]

/-- The determinant of two rows, as it is computed. -/
theorem determinantTwo_eq (A : Mat ℝ 2 2) : A 0 0 * A 1 1 - A 1 0 * A 0 1 = A.toMatrix.det := by
  simp only [Matrix.det_fin_two, toMatrix_apply]
  ring

/-- What is found for a matrix of two rows is an inverse. -/
theorem inverseTwo?_mul {A B : Mat ℝ 2 2} (h : inverseTwo? A = some B) :
    B.toMatrix * A.toMatrix = 1 := by
  refine dividedBy?_mul (determinantTwo_eq A) ?_ h
  intro i j
  rw [Matrix.adjugate_fin_two]
  fin_cases i <;> fin_cases j <;> rfl

/-- The determinant of three rows, as it is computed. -/
theorem determinantThree_eq (A : Mat ℝ 3 3) :
    A 0 0 * (A 1 1 * A 2 2 - A 2 1 * A 1 2) - A 0 1 * (A 1 0 * A 2 2 - A 2 0 * A 1 2) +
      A 0 2 * (A 1 0 * A 2 1 - A 2 0 * A 1 1) = A.toMatrix.det := by
  simp only [Matrix.det_fin_three, toMatrix_apply]
  ring

/-- What is found for a matrix of three rows is an inverse. -/
theorem inverseThree?_mul {A B : Mat ℝ 3 3} (h : inverseThree? A = some B) :
    B.toMatrix * A.toMatrix = 1 := by
  refine dividedBy?_mul (determinantThree_eq A) ?_ h
  intro i j
  rw [Matrix.adjugate_fin_three]
  fin_cases i <;> fin_cases j <;> simp <;> ring

/-- The indices that are left without one of them, in their order. -/
theorem skip_eq_succAbove (k : Fin 4) (i : Fin 3) : skip k i = k.succAbove i := rfl

/-- A signed minor is an entry of the adjugate, with row and column exchanged. -/
theorem cofactorFour_eq (A : Mat ℝ 4 4) (r s : Fin 4) :
    cofactorFour A r s = A.toMatrix.adjugate s r := by
  have hminor : minorFour A r s = (A.toMatrix.submatrix r.succAbove s.succAbove).det := by
    simp only [Matrix.det_fin_three, minorFour, Matrix.submatrix_apply, toMatrix_apply,
      skip_eq_succAbove]
    ring
  rw [Matrix.adjugate_fin_succ_eq_det_submatrix, ← hminor, cofactorFour]
  split_ifs with hparity
  · rw [Even.neg_one_pow (Nat.even_iff.mpr hparity), one_mul]
  · rw [Odd.neg_one_pow (Nat.not_even_iff_odd.mp (mt Nat.even_iff.mp hparity)), neg_one_mul]

/-- The determinant of four rows, expanded along the first column. -/
theorem determinantFour_eq (A : Mat ℝ 4 4) :
    total ((List.finRange 4).map fun i => A i 0 * cofactorFour A i 0) = A.toMatrix.det := by
  have hcorner := congrFun₂ A.toMatrix.adjugate_mul 0 0
  rw [Matrix.mul_apply] at hcorner
  simp only [total_eq_sum, ← Fin.sum_univ_def, cofactorFour_eq]
  simpa [mul_comm] using hcorner

/-- What is found for a matrix of four rows is an inverse. -/
theorem inverseFour?_mul {A B : Mat ℝ 4 4} (h : inverseFour? A = some B) :
    B.toMatrix * A.toMatrix = 1 := by
  refine dividedBy?_mul (f := fun i j => cofactorFour A j i) (determinantFour_eq A)
    (fun i j => cofactorFour_eq A j i) ?_
  simp only [inverseFour?] at h
  unfold dividedBy?
  split_ifs at h ⊢ with hzero
  rw [← h]
  congr 1
  apply ext_apply
  intro i j
  simp [div_eq_mul_inv]

end SmallInverses

end Mat

end ErrorBudget
