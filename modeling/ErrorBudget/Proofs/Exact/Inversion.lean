import ErrorBudget.Proofs.Exact.Invertible
import ErrorBudget.Solver

/-!
# Exact inversion

A way to invert matrices is exact if what it finds is an inverse, and if it finds one unless the
determinant is zero (`Mat.Inversion.IsExact`). The inversion by adjugates and by elimination is
exact over exact numbers (`Mat.Inversion.isExact_direct`), and it is the only one
(`Mat.Inversion.IsExact.eq_direct`). What is proved of exact propagation and of exact solves
therefore holds however the matrices are inverted (`Jacobian.propagateBy_of_isExact`,
`Solver.solveBy_of_isExact`).
-/

set_option autoImplicit false

namespace ErrorBudget

namespace Mat

namespace Inversion

/-- Inverses are found exactly where there are some, and they are inverses. -/
structure IsExact (invert : Inversion ℝ) : Prop where
  /-- What is found is an inverse. -/
  mul_eq_one : ∀ {n : ℕ} {A B : Mat ℝ n n}, invert.find? A = some B → B.toMatrix * A.toMatrix = 1
  /-- Only a matrix without an inverse is refused. -/
  det_eq_zero : ∀ {n : ℕ} {A : Mat ℝ n n}, invert.find? A = none → A.toMatrix.det = 0

/-- The adjugate over the determinant and the elimination invert exactly. -/
theorem isExact_direct : IsExact direct := ⟨inverse?_mul, det_of_inverse?⟩

namespace IsExact

variable {n : ℕ} {invert invert' : Inversion ℝ} {A B : Mat ℝ n n}

/-- An exact inversion refuses no matrix that has an inverse. -/
theorem exists_iff (h : invert.IsExact) :
    (∃ B, invert.find? A = some B) ↔ A.toMatrix.det ≠ 0 := by
  constructor
  · rintro ⟨B, hB⟩
    exact Matrix.det_ne_zero_of_left_inverse (h.mul_eq_one hB)
  · intro hne
    exact Option.ne_none_iff_exists'.mp (mt h.det_eq_zero hne)

/-- What an exact inversion finds is the inverse of linear algebra. -/
theorem toMatrix_eq_inv (h : invert.IsExact) (hB : invert.find? A = some B) :
    B.toMatrix = A.toMatrix⁻¹ :=
  (Matrix.inv_eq_left_inv (h.mul_eq_one hB)).symm

/-- Two exact inversions agree on every matrix: a matrix has one inverse at most. -/
theorem find?_eq (h : invert.IsExact) (h' : invert'.IsExact) (A : Mat ℝ n n) :
    invert.find? A = invert'.find? A := by
  cases hB : invert.find? A with
  | none =>
    cases hB' : invert'.find? A with
    | none => rfl
    | some B' => exact absurd (h.det_eq_zero hB) (h'.exists_iff.mp ⟨B', hB'⟩)
  | some B =>
    obtain ⟨B', hB'⟩ := h'.exists_iff.mpr (h.exists_iff.mp ⟨B, hB⟩)
    have hsame : B.toMatrix = B'.toMatrix :=
      (h.toMatrix_eq_inv hB).trans (h'.toMatrix_eq_inv hB').symm
    rw [hB']
    exact congrArg some (ext_apply (congrFun₂ hsame))

/-- There is one exact inversion. -/
theorem eq_direct (h : invert.IsExact) : invert = direct := by
  obtain ⟨find?⟩ := invert
  congr 1
  funext n A
  exact h.find?_eq isExact_direct A

end IsExact

end Inversion

end Mat

variable {invert : Mat.Inversion ℝ} {values errors : Point ℝ}

/-- Errors propagate alike with all exact inversions. -/
theorem Jacobian.propagateBy_of_isExact (h : invert.IsExact) (J : Jacobian ℝ) (how : Combination)
    (constants : Option (Point ℝ)) :
    J.propagateBy invert how values errors constants = J.propagate how values errors constants := by
  obtain rfl := h.eq_direct
  rfl

/-- A solve has the same outcome with all exact inversions. -/
theorem Solver.solveBy_of_isExact (h : invert.IsExact) (s : Solver ℝ) (options : SolveOptions ℝ) :
    s.solveBy invert values errors options = s.solve values errors options := by
  obtain rfl := h.eq_direct
  rfl

end ErrorBudget
