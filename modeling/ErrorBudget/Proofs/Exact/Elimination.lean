import ErrorBudget.Proofs.Exact.Matrix
import Mathlib.LinearAlgebra.Matrix.Block
import Mathlib.LinearAlgebra.Matrix.NonsingularInverse

/-!
# Elimination over exact numbers

Elimination with exchanges of rows yields an inverse of a matrix `A`, of any size
(`inverseByElimination?_mul`), and so does the inverse of every other size (`inverse?_mul`).

The state of the elimination is a pair `(T, B)`. On and above the diagonal, `T` holds the triangular
matrix `U` that is being built; below it, in the columns that are done, the multiples that were
subtracted. `B` is the identity after the same exchanges of rows. What each step preserves is
`U = F * A`, where `F` is `B` after the subtractions that `T` has recorded (`Eliminated`). After the
last column `F` is what backward substitution starts from, and it finds the solution `X` of
`U * X = F` (`remaining_backwardFrom`). Thus `U * (X * A) = U`, and `U` can be cancelled.
-/

set_option autoImplicit false

namespace ErrorBudget

namespace Mat

open Matrix

variable {α : Type} [Scalar α] {n : ℕ}

/-! ### Indices in their order -/

/-- The first indices, one more of them. -/
theorem take_finRange_succ {k : ℕ} (hk : k < n) :
    (List.finRange n).take (k + 1) = (List.finRange n).take k ++ [⟨k, hk⟩] := by
  rw [List.take_succ_eq_append_getElem (by simpa using hk)]
  simp

/-- The last indices, one more of them. -/
theorem drop_finRange {k : ℕ} (hk : k < n) :
    (List.finRange n).drop k = ⟨k, hk⟩ :: (List.finRange n).drop (k + 1) := by
  rw [List.drop_eq_getElem_cons (by simpa using hk)]
  simp

/-! ### Exchanges of rows -/

/-- Exchanging two rows moves every row as the transposition does. -/
theorem swapRows_apply (A : Mat ℝ n n) (i p r c : Fin n) :
    swapRows A i p r c = A (Equiv.swap i p r) c := by
  simp only [swapRows, ofFn_apply, Equiv.swap_apply_def]
  split_ifs <;> rfl

/-- An exchange of two rows below the row `j` keeps the rows below it below it. -/
theorem lt_swap_iff {j i p : Fin n} (hi : j < i) (hp : j < p) (r : Fin n) :
    j < Equiv.swap i p r ↔ j < r := by
  rw [Equiv.swap_apply_def]
  split_ifs with hri hrp
  · simp [hri, hi, hp]
  · simp [hrp, hi, hp]
  · rfl

/-- Exchanging two rows leaves those above them. -/
theorem swap_of_lt {j i p : Fin n} (hi : j < i) (hp : j < p) : Equiv.swap i p j = j :=
  Equiv.swap_apply_of_ne_of_ne hi.ne hp.ne

/-- The row of the pivot is not above the diagonal. -/
theorem le_pivotRow (A : Mat ℝ n n) (i : Fin n) : i ≤ pivotRow A i := by
  have hfold (l : List (Fin n)) (best : Fin n) (hbest : i ≤ best) :
      i ≤ l.foldl (fun best r =>
        if i < r ∧ Scalar.abs (A best i) < Scalar.abs (A r i) then r else best) best := by
    induction l generalizing best with
    | nil => exact hbest
    | cons r l ih =>
      rw [List.foldl_cons]
      apply ih
      split_ifs with hr
      · exact hr.1.le
      · exact hbest
  exact hfold _ i le_rfl

/-! ### Forward substitution -/

/-- Forward substitution through the first `k` columns. -/
def forwardTo (L B : Mat α n n) (k : ℕ) : Mat α n n :=
  ((List.finRange n).take k).foldl (forwardStep L) B

/-- No step forwards changes nothing. -/
@[simp] theorem forwardTo_zero (L B : Mat ℝ n n) : forwardTo L B 0 = B := rfl

/-- One more step forwards. -/
theorem forwardTo_succ (L B : Mat ℝ n n) {k : ℕ} (hk : k < n) :
    forwardTo L B (k + 1) = forwardStep L (forwardTo L B k) ⟨k, hk⟩ := by
  simp [forwardTo, take_finRange_succ hk]

/-- Forward substitution acts on rows, so it commutes with a matrix on the right. -/
theorem toMatrix_forwardStep_mul (L : Mat ℝ n n) {M B : Mat ℝ n n}
    {A : Matrix (Fin n) (Fin n) ℝ} (h : M.toMatrix = B.toMatrix * A) (i : Fin n) :
    (forwardStep L M i).toMatrix = (forwardStep L B i).toMatrix * A := by
  have hentry (r c : Fin n) : M r c = ∑ s, B r s * A s c := by
    rw [← toMatrix_apply, h, Matrix.mul_apply]
    rfl
  ext r c
  simp only [toMatrix_apply, forwardStep, ofFn_apply, Matrix.mul_apply]
  split_ifs
  · rw [hentry, hentry, Finset.sum_mul, ← Finset.sum_sub_distrib]
    exact Finset.sum_congr rfl fun s _ => by ring
  · exact hentry r c

/-- A step forwards at a row above two others can be taken before or after their exchange. -/
theorem forwardStep_swapRows (L B : Mat ℝ n n) {j i p : Fin n} (hi : j < i) (hp : j < p) :
    forwardStep (swapRows L i p) (swapRows B i p) j = swapRows (forwardStep L B j) i p := by
  apply ext_apply
  intro r c
  simp only [swapRows_apply, forwardStep, ofFn_apply, swap_of_lt hi hp, lt_swap_iff hi hp]

/-- Rows that are exchanged below the columns that are done carry their multiples along. -/
theorem forwardTo_swapRows (L B : Mat ℝ n n) {i p : Fin n} (hip : i ≤ p) {k : ℕ} (hk : k ≤ i) :
    forwardTo (swapRows L i p) (swapRows B i p) k = swapRows (forwardTo L B k) i p := by
  induction k with
  | zero => rfl
  | succ k ih =>
    have hki : (⟨k, by omega⟩ : Fin n) < i := hk
    rw [forwardTo_succ _ _ (by omega), forwardTo_succ _ _ (by omega), ih (by omega),
      forwardStep_swapRows _ _ hki (hki.trans_le hip)]

/-- To clear a column leaves the multiples in the columns before it. -/
theorem forwardTo_clearColumn (T B : Mat ℝ n n) (i : Fin n) {k : ℕ} (hk : k ≤ i) :
    forwardTo (clearColumn T i) B k = forwardTo T B k := by
  induction k with
  | zero => rw [forwardTo_zero, forwardTo_zero]
  | succ k ih =>
    have hki : (⟨k, by omega⟩ : Fin n) < i := hk
    rw [forwardTo_succ _ _ (by omega), forwardTo_succ _ _ (by omega), ih (by omega)]
    apply ext_apply
    intro r c
    simp [forwardStep, clearColumn, hki.ne, hki.not_gt]

/-! ### What elimination preserves -/

/-- The matrix on its way to triangular form: in the first `k` columns, what `T` holds below the
diagonal are multiples, and the matrix is zero there. -/
def upperPart (k : ℕ) (T : Mat α n n) : Mat α n n :=
  ofFn fun r c => if c.val < k ∧ c < r then 0 else T r c

/-- The state of the elimination of `A` after `k` columns. -/
structure Eliminated (A T B : Mat ℝ n n) (k : ℕ) : Prop where
  /-- No pivot so far is zero. -/
  pivot_ne : ∀ i : Fin n, i.val < k → T i i ≠ 0
  /-- The matrix so far is the result of the recorded subtractions. -/
  factored : (upperPart k T).toMatrix = (forwardTo T B k).toMatrix * A.toMatrix

/-- The identity matrix is that of linear algebra. -/
theorem toMatrix_identity : (identity n : Mat ℝ n n).toMatrix = 1 := by
  ext i j
  simp [identity, Matrix.one_apply]

/-- Before the first column nothing has been done. -/
theorem eliminated_zero (A : Mat ℝ n n) : Eliminated A A (identity n) 0 where
  pivot_ne i hi := absurd hi (Nat.not_lt_zero _)
  factored := by
    have hupper : upperPart 0 A = A := by
      apply ext_apply
      simp [upperPart]
    rw [hupper, forwardTo_zero, toMatrix_identity, one_mul]

/-- Exchanging two rows below a triangle exchanges them in what is left. -/
theorem upperPart_swapRows (T : Mat ℝ n n) {i p : Fin n} (hip : i ≤ p) :
    upperPart i (swapRows T i p) = swapRows (upperPart i T) i p := by
  apply ext_apply
  intro r c
  simp only [upperPart, swapRows_apply, ofFn_apply]
  refine if_congr (and_congr_right fun hc => ?_) rfl rfl
  have hci : c < i := hc
  exact (lt_swap_iff hci (hci.trans_le hip) r).symm

/-- An exchange of rows keeps the factorization. -/
theorem factored_swapRows {A T B : Mat ℝ n n} {i p : Fin n} (hip : i ≤ p)
    (h : (upperPart i T).toMatrix = (forwardTo T B i).toMatrix * A.toMatrix) :
    (upperPart i (swapRows T i p)).toMatrix =
      (forwardTo (swapRows T i p) (swapRows B i p) i).toMatrix * A.toMatrix := by
  rw [upperPart_swapRows T hip, forwardTo_swapRows _ _ hip le_rfl]
  ext r c
  have hrow := congrFun₂ h (Equiv.swap i p r) c
  simpa only [toMatrix_apply, swapRows_apply, Matrix.mul_apply] using hrow

/-- Clearing a column is a step of forward substitution with the multiples that it stores. -/
theorem upperPart_clearColumn (T : Mat ℝ n n) {i : Fin n} (hpivot : T i i ≠ 0) :
    upperPart (i + 1) (clearColumn T i) = forwardStep (clearColumn T i) (upperPart i T) i := by
  apply ext_apply
  intro r c
  simp only [upperPart, forwardStep, clearColumn, ofFn_apply]
  rcases lt_or_ge i r with hr | hr
  · rcases lt_trichotomy c i with hc | rfl | hc
    · -- columns that are done stay zero below the diagonal
      simp [hc, hr, hc.trans hr, Nat.lt_succ_of_lt hc]
    · -- the pivot clears its column
      simp [hr]
      field_simp
      ring
    · have hlater : ¬ (c.val < i + 1) := by
        have : i.val < c.val := hc
        omega
      simp [hr, hc, hc.ne', hc.not_gt, hlater]
  · have hdone : (c.val < i + 1 ∧ c < r) ↔ (c.val < i ∧ c < r) := by
      constructor
      · rintro ⟨-, hcr⟩
        exact ⟨hcr.trans_le hr, hcr⟩
      · rintro ⟨hci, hcr⟩
        exact ⟨by omega, hcr⟩
    simp only [if_neg hr.not_gt]
    exact if_congr hdone rfl rfl

/-- One column of elimination preserves the state. -/
theorem Eliminated.step {A T B T' B' : Mat ℝ n n} {i : Fin n} (h : Eliminated A T B i)
    (hstep : eliminate? i (T, B) = some (T', B')) : Eliminated A T' B' (i + 1) := by
  simp only [eliminate?] at hstep
  split_ifs at hstep with hzero
  obtain ⟨rfl, rfl⟩ : clearColumn (swapRows T i (pivotRow T i)) i = T' ∧
      swapRows B i (pivotRow T i) = B' := by simpa using hstep
  have hip := le_pivotRow T i
  have hpivot : swapRows T i (pivotRow T i) i i ≠ 0 := by simpa [swapRows_apply] using hzero
  refine ⟨fun j hj => ?_, ?_⟩
  · have hkept : clearColumn (swapRows T i (pivotRow T i)) i j j =
        swapRows T i (pivotRow T i) j j := by
      have hji : ¬ i < j := by simpa using Nat.lt_succ_iff.mp hj
      simp [clearColumn, hji]
    rw [hkept]
    rcases (Nat.lt_succ_iff.mp hj).lt_or_eq with hlt | heq
    · have hji : j < i := hlt
      rw [swapRows_apply, swap_of_lt hji (hji.trans_le hip)]
      exact h.pivot_ne j hlt
    · rw [Fin.ext heq]
      exact hpivot
  · rw [upperPart_clearColumn _ hpivot, forwardTo_succ _ _ i.isLt,
      forwardTo_clearColumn _ _ _ le_rfl]
    exact toMatrix_forwardStep_mul _ (factored_swapRows hip h.factored) i

/-- What the elimination of all columns yields. -/
theorem eliminated_of_foldlM {A T B : Mat ℝ n n}
    (h : (List.finRange n).foldlM (fun state i => eliminate? i state) (A, identity n) =
      some (T, B)) : Eliminated A T B n := by
  have hrun (k : ℕ) (hk : k ≤ n) : ∀ state : Mat ℝ n n × Mat ℝ n n,
      ((List.finRange n).take k).foldlM (fun state i => eliminate? i state) (A, identity n) =
        some state → Eliminated A state.1 state.2 k := by
    induction k with
    | zero =>
      rintro state hstate
      obtain rfl : (A, identity n) = state := by simpa using hstate
      exact eliminated_zero A
    | succ k ih =>
      intro state hstate
      rw [take_finRange_succ (by omega), List.foldlM_append] at hstate
      obtain ⟨before, hbefore, hlast⟩ := Option.bind_eq_some_iff.mp hstate
      have hstep : eliminate? ⟨k, by omega⟩ (before.1, before.2) = some (state.1, state.2) := by
        simpa using hlast
      exact Eliminated.step (ih (by omega) before hbefore) hstep
  refine hrun n le_rfl (T, B) ?_
  rw [List.take_of_length_le (by simp)]
  exact h

/-! ### Backward substitution -/

/-- Backward substitution from the last row up to the row `k`. -/
def backwardFrom (U Y : Mat α n n) (k : ℕ) : Mat α n n :=
  ((List.finRange n).drop k).foldr (fun i X => backwardStep U X i) Y

/-- Behind the last row there is nothing to solve for. -/
theorem backwardFrom_of_le (U Y : Mat α n n) {k : ℕ} (hk : n ≤ k) : backwardFrom U Y k = Y := by
  simp [backwardFrom, List.drop_of_length_le, hk]

/-- One more step backwards. -/
theorem backwardFrom_eq_step (U Y : Mat α n n) {k : ℕ} (hk : k < n) :
    backwardFrom U Y k = backwardStep U (backwardFrom U Y (k + 1)) ⟨k, hk⟩ := by
  simp [backwardFrom, drop_finRange hk]

/-- The equations that are left when the rows from `k` on are solved: a solved row stands for its
own unknown. -/
def remaining (k : ℕ) (T : Mat α n n) : Mat α n n :=
  ofFn fun r c => if k ≤ c.val then if r ≤ c then T r c else 0 else if r = c then 1 else 0

/-- Solving a row changes what the rows above it say about their own unknowns, and nothing else. -/
theorem remaining_backwardStep {T : Mat ℝ n n} (X : Mat ℝ n n) {i : Fin n} (hpivot : T i i ≠ 0) :
    (remaining i T).toMatrix * (backwardStep T X i).toMatrix =
      (remaining (i + 1) T).toMatrix * X.toMatrix := by
  ext r c
  set s := X i c / T i i with hs
  have hsolved : T i i * s = X i c := by rw [hs, mul_div_cancel₀ _ hpivot]
  set moved := if r < i then s * T r i else 0 with hmoved
  -- of the terms in the row `r`, only those of the unknowns `r` and `i` change
  have hterm (j : Fin n) : remaining i T r j * backwardStep T X i j c -
      remaining (i + 1) T r j * X j c =
      (if j = i then moved else 0) - if j = r then moved else 0 := by
    simp only [remaining, backwardStep, ofFn_apply, ← hs, hmoved]
    rcases lt_trichotomy j i with hj | rfl | hj
    · have hrows : ¬ (i.val ≤ j.val) ∧ ¬ (i.val + 1 ≤ j.val) := by
        have : j.val < i.val := hj
        omega
      rw [if_neg hrows.1, if_neg hrows.2, if_neg hj.ne, if_pos hj, if_neg hj.ne, eq_comm]
      by_cases hr : r = j
      · simp [hr, hj]
      · simp [hr, Ne.symm hr]
    · have hrow : ¬ (j.val + 1 ≤ j.val) := by omega
      rw [if_pos le_rfl, if_neg hrow, if_pos rfl, if_pos rfl]
      rcases lt_trichotomy r j with hr | rfl | hr
      · simp [hr, hr.le, hr.ne, hr.ne', mul_comm]
      · simp [hsolved]
      · simp [hr.not_ge, hr.not_gt, hr.ne']
    · have hrows : i.val ≤ j.val ∧ i.val + 1 ≤ j.val := by
        have : i.val < j.val := hj
        omega
      rw [if_pos hrows.1, if_pos hrows.2, if_neg hj.ne', if_neg hj.not_gt, if_neg hj.ne']
      by_cases hr : r = j
      · simp [hr, hj.not_gt]
      · simp [Ne.symm hr]
  simp only [Matrix.mul_apply, toMatrix_apply]
  rw [← sub_eq_zero, ← Finset.sum_sub_distrib, Finset.sum_congr rfl fun j _ => hterm j]
  simp

/-- Backward substitution solves the triangular equations. -/
theorem remaining_backwardFrom {T : Mat ℝ n n} (hpivot : ∀ i, T i i ≠ 0) (Y : Mat ℝ n n) {k : ℕ}
    (hk : k ≤ n) : (remaining k T).toMatrix * (backwardFrom T Y k).toMatrix = Y.toMatrix := by
  induction hk using Nat.decreasingInduction with
  | self =>
    have hdone : (remaining n T).toMatrix = 1 := by
      ext r c
      simp [remaining, Matrix.one_apply]
    rw [hdone, one_mul, backwardFrom_of_le _ _ le_rfl]
  | of_succ k hk ih =>
    rw [backwardFrom_eq_step _ _ hk]
    exact (remaining_backwardStep _ (hpivot ⟨k, hk⟩)).trans ih

/-! ### The inverse -/

/-- A triangular matrix whose pivots are not zero can be cancelled. -/
theorem isUnit_upperPart {T : Mat ℝ n n} (hpivot : ∀ i, T i i ≠ 0) :
    IsUnit (upperPart n T).toMatrix := by
  rw [Matrix.isUnit_iff_isUnit_det, Matrix.det_of_isUpperTriangular]
  · simp [upperPart, Finset.prod_ne_zero_iff, hpivot]
  · intro r c hcr
    have hlt : c < r := hcr
    simp [upperPart, hlt]

/-- What elimination finds is an inverse. -/
theorem inverseByElimination?_mul {A X : Mat ℝ n n} (h : inverseByElimination? A = some X) :
    X.toMatrix * A.toMatrix = 1 := by
  unfold inverseByElimination? at h
  obtain ⟨⟨T, B⟩, hrun, hX⟩ := Option.bind_eq_some_iff.mp h
  obtain ⟨hpivot, hfactored⟩ := eliminated_of_foldlM hrun
  replace hpivot (i : Fin n) : T i i ≠ 0 := hpivot i i.isLt
  have hX : backwardFrom T (forwardTo T B n) 0 = X := by
    have hsome := Option.some.inj hX
    rw [List.foldl_reverse] at hsome
    rw [← hsome, backwardFrom, forwardTo, List.take_of_length_le (by simp), List.drop_zero]
  have hupper : remaining 0 T = upperPart n T := by
    apply ext_apply
    intro r c
    rcases lt_or_ge c r with hcr | hcr
    · simp [remaining, upperPart, hcr]
    · simp [remaining, upperPart, hcr, hcr.not_gt]
  have hsolves := remaining_backwardFrom hpivot (forwardTo T B n) (Nat.zero_le n)
  rw [hX, hupper] at hsolves
  refine (isUnit_upperPart hpivot).mul_left_cancel ?_
  rw [← mul_assoc, hsolves, mul_one, hfactored]

/-- The inverse of a matrix of any size, where one is found, is an inverse. -/
theorem inverse?_mul {n : ℕ} {A B : Mat ℝ n n} (h : A.inverse? = some B) :
    B.toMatrix * A.toMatrix = 1 := by
  match n, A, B, h with
  | 0, _, _, _ => exact Subsingleton.elim _ _
  | 1, _, _, h => exact inverseOne?_mul h
  | 2, _, _, h => exact inverseTwo?_mul h
  | 3, _, _, h => exact inverseThree?_mul h
  | 4, _, _, h => exact inverseFour?_mul h
  | _ + 5, _, _, h => exact inverseByElimination?_mul h

end Mat

end ErrorBudget
