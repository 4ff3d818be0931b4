import ErrorBudget.Proofs.Exact.Elimination

/-!
# Which matrices have an inverse

The inverse of a matrix over exact numbers is found whenever there is one: only a matrix of
determinant zero is refused (`exists_inverse?_iff`).

For elimination this rests on the choice of the pivot. Up to a sign, no step changes the determinant
of the matrix that is being brought to triangular form (`det_upperPart_of_eliminate?`). As the pivot
has the largest magnitude of what is left of its column, elimination gives up only where the first
columns have entries in too few rows, and then the determinant is zero (`det_upperPart_of_pivot`).
-/

set_option autoImplicit false

namespace ErrorBudget

namespace Mat

open Matrix

variable {n : ℕ}

/-- No entry that is left in a column has a larger magnitude than the pivot. -/
theorem abs_le_pivotRow (A : Mat ℝ n n) {i r : Fin n} (hr : i ≤ r) :
    |A r i| ≤ |A (pivotRow A i) i| := by
  have hfold (l : List (Fin n)) (best : Fin n) :
      |A best i| ≤ |A (l.foldl (fun best r =>
        if i < r ∧ Scalar.abs (A best i) < Scalar.abs (A r i) then r else best) best) i| ∧
      ∀ r ∈ l, i < r → |A r i| ≤ |A (l.foldl (fun best r =>
        if i < r ∧ Scalar.abs (A best i) < Scalar.abs (A r i) then r else best) best) i| := by
    induction l generalizing best with
    | nil => simp
    | cons s l ih =>
      rw [List.foldl_cons, List.forall_mem_cons]
      obtain ⟨hbest, hlater⟩ :=
        ih (if i < s ∧ Scalar.abs (A best i) < Scalar.abs (A s i) then s else best)
      refine ⟨le_trans ?_ hbest, fun hs => le_trans ?_ hbest, hlater⟩
      · split_ifs with htaken
        · exact htaken.2.le
        · exact le_rfl
      · split_ifs with htaken
        · exact le_rfl
        · exact not_lt.mp fun hlt => htaken ⟨hs, hlt⟩
  obtain ⟨hself, hbelow⟩ := hfold (List.finRange n) i
  rcases hr.eq_or_lt with rfl | hlt
  · exact hself
  · exact hbelow r (List.mem_finRange r) hlt

/-- A step forwards does not change the determinant. -/
theorem det_forwardStep (L M : Mat ℝ n n) (i : Fin n) :
    (forwardStep L M i).toMatrix.det = M.toMatrix.det := by
  refine Matrix.det_eq_of_forall_row_eq_smul_add_const
    (fun r => if i < r then -L r i else 0) i (if_neg (lt_irrefl i)) ?_
  intro r c
  simp only [toMatrix_apply, forwardStep, ofFn_apply]
  split_ifs
  · ring
  · ring

/-- Exchanging two rows changes at most the sign of the determinant. -/
theorem det_swapRows (M : Mat ℝ n n) (i p : Fin n) :
    (swapRows M i p).toMatrix.det = 0 ↔ M.toMatrix.det = 0 := by
  have hrows : (swapRows M i p).toMatrix = M.toMatrix.submatrix (Equiv.swap i p) id := by
    ext r c
    exact swapRows_apply M i p r c
  have hsign : ((Equiv.swap i p).sign : ℝ) ≠ 0 := by
    rcases Int.units_eq_one_or (Equiv.swap i p).sign with hsign | hsign <;> simp [hsign]
  rw [hrows, Matrix.det_permute, mul_eq_zero, or_iff_right hsign]

/-- A step of elimination keeps whether the determinant is zero. -/
theorem det_upperPart_of_eliminate? {i : Fin n} {T B T' B' : Mat ℝ n n}
    (h : eliminate? i (T, B) = some (T', B')) :
    (upperPart (i + 1) T').toMatrix.det = 0 ↔ (upperPart i T).toMatrix.det = 0 := by
  simp only [eliminate?] at h
  split_ifs at h with hzero
  obtain ⟨rfl, rfl⟩ : clearColumn (swapRows T i (pivotRow T i)) i = T' ∧
      swapRows B i (pivotRow T i) = B' := by simpa using h
  have hpivot : swapRows T i (pivotRow T i) i i ≠ 0 := by simpa [swapRows_apply] using hzero
  rw [upperPart_clearColumn _ hpivot, det_forwardStep, upperPart_swapRows _ (le_pivotRow T i),
    det_swapRows]

/-- Where no pivot is left in a column, the determinant is zero. -/
theorem det_upperPart_of_pivot {T : Mat ℝ n n} {i : Fin n} (h : T (pivotRow T i) i = 0) :
    (upperPart i T).toMatrix.det = 0 := by
  -- The columns up to `i` only have entries in rows above the row `i`.
  have hentries (r c : Fin n) (hc : c ≤ i) (hr : i ≤ r) : upperPart i T r c = 0 := by
    rw [upperPart, ofFn_apply]
    split_ifs with hdone
    · rfl
    · have hci : c = i := by
        by_contra hne
        have hlt : c < i := lt_of_le_of_ne hc hne
        exact hdone ⟨hlt, hlt.trans_le hr⟩
      have hle := abs_le_pivotRow T hr
      rw [h, abs_zero] at hle
      rw [hci]
      exact abs_nonpos_iff.mp hle
  rw [Matrix.det_apply]
  apply Finset.sum_eq_zero
  intro σ _
  -- They are too many for these rows, so in every product one of them meets another row.
  obtain ⟨c, hc, hr⟩ : ∃ c ≤ i, i ≤ σ c := by
    by_contra hall
    push Not at hall
    have hmaps : ∀ c ∈ Finset.Iic i, σ c ∈ Finset.Iio i := by
      intro c hc
      exact Finset.mem_Iio.mpr (hall c (Finset.mem_Iic.mp hc))
    have hcard := Finset.card_le_card_of_injOn σ hmaps σ.injective.injOn
    rw [Fin.card_Iic, Fin.card_Iio] at hcard
    omega
  have hproduct : ∏ c, (upperPart i T).toMatrix (σ c) c = 0 :=
    Finset.prod_eq_zero (Finset.mem_univ c) (hentries (σ c) c hc hr)
  rw [hproduct, smul_zero]

/-- Some columns can be eliminated without changing whether the determinant is zero, and if they can
not be eliminated, it is zero. -/
theorem det_of_foldlM (A : Mat ℝ n n) {k : ℕ} (hk : k ≤ n) :
    (∀ T B, ((List.finRange n).take k).foldlM (fun state i => eliminate? i state)
        (A, identity n) = some (T, B) →
      ((upperPart k T).toMatrix.det = 0 ↔ A.toMatrix.det = 0)) ∧
    (((List.finRange n).take k).foldlM (fun state i => eliminate? i state) (A, identity n) = none →
      A.toMatrix.det = 0) := by
  -- The invariant along the columns: the determinant of what is left is zero exactly if that of the
  -- matrix is.
  induction k with
  | zero =>
    have hupper : upperPart 0 A = A := by
      apply ext_apply
      simp [upperPart]
    constructor
    · intro T B hstate
      obtain ⟨rfl, -⟩ : A = T ∧ identity n = B := by simpa using hstate
      rw [hupper]
    · simp
  | succ k ih =>
    obtain ⟨hdet, hnone⟩ := ih (by omega)
    rw [take_finRange_succ (by omega), List.foldlM_append]
    constructor
    · intro T B hstate
      obtain ⟨⟨T', B'⟩, hbefore, hlast⟩ := Option.bind_eq_some_iff.mp hstate
      have hstep : eliminate? ⟨k, by omega⟩ (T', B') = some (T, B) := by simpa using hlast
      exact (det_upperPart_of_eliminate? hstep).trans (hdet T' B' hbefore)
    · intro hfails
      cases hbefore : ((List.finRange n).take k).foldlM (fun state i => eliminate? i state)
          (A, identity n) with
      | none => exact hnone hbefore
      | some state =>
        obtain ⟨T, B⟩ := state
        let i : Fin n := ⟨k, by omega⟩
        have hlast : eliminate? i (T, B) = none := by simpa [hbefore] using hfails
        have hpivot : T (pivotRow T i) i = 0 := by simpa [eliminate?] using hlast
        have hzero : (upperPart i T).toMatrix.det = 0 := det_upperPart_of_pivot hpivot
        exact (hdet T B hbefore).mp hzero

/-- Elimination finds no inverse only if the determinant is zero. -/
theorem det_of_inverseByElimination? {A : Mat ℝ n n} (h : inverseByElimination? A = none) :
    A.toMatrix.det = 0 := by
  unfold inverseByElimination? at h
  have hrun : (List.finRange n).foldlM (fun state i => eliminate? i state) (A, identity n) =
      none := by
    cases hstate : (List.finRange n).foldlM (fun state i => eliminate? i state) (A, identity n) with
    | none => rfl
    | some state => simp [hstate] at h
  refine (det_of_foldlM A le_rfl).2 ?_
  rw [List.take_of_length_le (by simp)]
  exact hrun

/-- A matrix of one row has no inverse only if it is zero. -/
theorem det_of_inverseOne? {A : Mat ℝ 1 1} (h : inverseOne? A = none) : A.toMatrix.det = 0 := by
  rw [Matrix.det_fin_one]
  simpa [inverseOne?] using h

/-- A matrix of four rows has no inverse only if its determinant is zero. -/
theorem det_of_inverseFour? {A : Mat ℝ 4 4} (h : inverseFour? A = none) : A.toMatrix.det = 0 := by
  unfold inverseFour? at h
  rw [determinantFour_eq] at h
  dsimp only at h
  split_ifs at h with hzero
  simpa using hzero

/-- A matrix has no inverse only if its determinant is zero. -/
theorem det_of_inverse? {n : ℕ} {A : Mat ℝ n n} (h : A.inverse? = none) : A.toMatrix.det = 0 := by
  match n, A, h with
  | 1, _, h => exact det_of_inverseOne? h
  | 2, A, h => exact (determinantTwo_eq A).symm.trans (dividedBy?_eq_none_iff.mp h)
  | 3, A, h => exact (determinantThree_eq A).symm.trans (dividedBy?_eq_none_iff.mp h)
  | 4, _, h => exact det_of_inverseFour? h
  | _ + 5, _, h => exact det_of_inverseByElimination? h

/-- A matrix has an inverse unless its determinant is zero. -/
theorem exists_inverse?_iff {n : ℕ} {A : Mat ℝ n n} :
    (∃ B, A.inverse? = some B) ↔ A.toMatrix.det ≠ 0 := by
  constructor
  · rintro ⟨B, hB⟩
    exact Matrix.det_ne_zero_of_left_inverse (inverse?_mul hB)
  · intro hne
    exact Option.ne_none_iff_exists'.mp (mt det_of_inverse? hne)

end Mat

end ErrorBudget
