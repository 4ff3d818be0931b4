import ErrorBudget.Proofs.Double.Arithmetic
import ErrorBudget.Proofs.Exact.Matrix

/-!
# Sums of products of magnitudes

How far rounding can carry a sum of products that are not negative. After `N` roundings of an amount
`q` that is off by at most `c`, at most `(1 + 2 ^ (-52)) ^ N * (q + c)` has been computed (`bound`).
Each addition and each multiplication counts as one more rounding, and a factor carries what an
amount is off by along (`AtMost.add_bound`, `atMost_total`, `atMost_mulVec`). What stays below
`limit` in exact arithmetic stays finite in floating-point arithmetic, unless far too many numbers
are added (`bound_lt`).
-/

set_option autoImplicit false

namespace ErrorBudget.Double

/-- What can be computed with `N` roundings for an amount that is off by at most `c`. -/
noncomputable def bound (N : ℕ) (c q : ℝ) : ℝ := (1 + epsilon) ^ N * (q + c)

/-- The largest number that is sure to stay finite when it is computed with rounding. The finite
numbers reach beyond it by less than a thousandth. -/
noncomputable def limit : ℝ := 999 / 1000 * overflow

variable {N : ℕ} {c d p q : ℝ} {x y : Float}

section Bounds

/-- One is below the overflow threshold. -/
theorem one_le_overflow : 1 ≤ overflow := by
  rw [overflow_eq]
  exact one_le_pow₀ one_le_two

/-- The range of the numbers is not symmetric: the product of its ends is small. -/
theorem overflow_mul_smallest : overflow * smallest = 2 ^ (-50 : ℤ) := by
  rw [overflow_eq, smallest_eq, ← zpow_natCast, ← zpow_add₀ two_ne_zero]
  rfl

/-- The smallest positive number is tiny. -/
theorem smallest_le : smallest ≤ 2 ^ (-50 : ℤ) := by
  rw [← overflow_mul_smallest]
  exact le_mul_of_one_le_left smallest_pos.le one_le_overflow

/-- Roundings make no bound smaller. -/
theorem one_le_growth (N : ℕ) : 1 ≤ (1 + epsilon) ^ N :=
  one_le_pow₀ (le_add_of_nonneg_right epsilon_pos.le)

/-- One more rounding raises a bound by one step. -/
theorem inflate_bound_le : inflate (bound N c q) ≤ bound (N + 1) (c + smallest) q := by
  have hgrowth := mul_le_mul_of_nonneg_right (one_le_growth (N + 1)) smallest_pos.le
  calc inflate (bound N c q)
    _ = (1 + epsilon) ^ (N + 1) * (q + c) + 1 * smallest := by
      unfold inflate bound
      rw [pow_succ]
      ring
    _ ≤ (1 + epsilon) ^ (N + 1) * (q + c) + (1 + epsilon) ^ (N + 1) * smallest := by
      gcongr
    _ = bound (N + 1) (c + smallest) q := by
      unfold bound
      ring

/-- A bound grows with each of its parts. -/
theorem bound_le_bound {N' : ℕ} (hN : N ≤ N') (hcd : c ≤ d) (hpq : p ≤ q) (hc : 0 ≤ c)
    (hp : 0 ≤ p) : bound N c p ≤ bound N' d q := by
  have hgrowth : 1 ≤ 1 + epsilon := le_add_of_nonneg_right epsilon_pos.le
  unfold bound
  gcongr

/-- A sum within two bounds is within their sum, one step further. -/
theorem AtMost.add_bound (hx : AtMost x (bound N c p)) (hy : AtMost y (bound N d q))
    (hfits : bound (N + 1) (c + d + smallest) (p + q) < overflow) :
    AtMost (x + y) (bound (N + 1) (c + d + smallest) (p + q)) := by
  have hsum : bound N c p + bound N d q = bound N (c + d) (p + q) := by
    unfold bound
    ring
  have hle : inflate (bound N c p + bound N d q) ≤ bound (N + 1) (c + d + smallest) (p + q) :=
    hsum ▸ inflate_bound_le
  exact (hx.add hy (hle.trans_lt hfits)).mono hle

/-- A product with a number of fixed size is within the bound times this size, one step further. -/
theorem AtMost.mul_bound {a : ℝ} (hx : AtMost x a) (hy : AtMost y (bound N c q))
    (hfits : bound (N + 1) (a * c + smallest) (a * q) < overflow) :
    AtMost (x * y) (bound (N + 1) (a * c + smallest) (a * q)) := by
  have hproduct : a * bound N c q = bound N (a * c) (a * q) := by
    unfold bound
    ring
  have hle : inflate (a * bound N c q) ≤ bound (N + 1) (a * c + smallest) (a * q) :=
    hproduct ▸ inflate_bound_le
  exact (hx.mul hy (hle.trans_lt hfits)).mono hle

/-- Up to `2 ^ 18` roundings enlarge a bound by less than a part in 4096. -/
theorem growth_le (hN : N ≤ 2 ^ 18) : (1 + epsilon) ^ N ≤ 1 + 2 ^ (-12 : ℤ) := by
  rw [epsilon_eq]
  -- The reciprocal of the growth is at least a shrinking, which Bernoulli's inequality bounds.
  have hshrink : 1 - N * 2 ^ (-52 : ℤ) ≤ (1 - 2 ^ (-52 : ℤ) : ℝ) ^ N := by
    have hbernoulli := one_add_mul_le_pow (a := -(2 : ℝ) ^ (-52 : ℤ)) (by norm_num) N
    simpa [sub_eq_add_neg] using hbernoulli
  have hproduct : (1 + 2 ^ (-52 : ℤ) : ℝ) ^ N * (1 - 2 ^ (-52 : ℤ)) ^ N ≤ 1 := by
    rw [← mul_pow]
    exact pow_le_one₀ (by norm_num) (by norm_num)
  have hcount : (N : ℝ) ≤ 2 ^ 18 := by exact_mod_cast hN
  have hgrowth := one_le_growth N
  rw [epsilon_eq] at hgrowth
  have hpart : (N : ℝ) * 2 ^ (-52 : ℤ) ≤ 2 ^ (-34 : ℤ) :=
    calc (N : ℝ) * 2 ^ (-52 : ℤ)
      _ ≤ 2 ^ 18 * 2 ^ (-52 : ℤ) := by gcongr
      _ = 2 ^ (-34 : ℤ) := by norm_num
  have hle : (1 + 2 ^ (-52 : ℤ) : ℝ) ^ N * (1 - 2 ^ (-34 : ℤ)) ≤ 1 := by
    refine le_trans ?_ hproduct
    gcongr
    linarith
  norm_num at hle ⊢
  linarith

/-- What does not exceed the limit in exact arithmetic stays finite. -/
theorem bound_lt (hN : N ≤ 2 ^ 18) (hc : c ≤ overflow * 2 ^ (-11 : ℤ)) (hq : q ≤ limit) :
    bound N c q < overflow := by
  have hgrowth := growth_le hN
  have hoverflow := overflow_pos
  have hone := one_le_growth N
  calc bound N c q
    _ ≤ (1 + epsilon) ^ N * (999 / 1000 * overflow + overflow * 2 ^ (-11 : ℤ)) := by
      unfold bound
      unfold limit at hq
      gcongr
    _ ≤ (1 + 2 ^ (-12 : ℤ)) * (999 / 1000 * overflow + overflow * 2 ^ (-11 : ℤ)) := by
      gcongr
    _ < overflow := by
      norm_num
      linarith

end Bounds

section Totals

/-- A sum is finite only if all its terms are. -/
theorem isFinite_of_total {l : List Float} (h : (Mat.total l).isFinite = true) :
    ∀ y ∈ l, y.isFinite = true := by
  cases l with
  | nil => simp
  | cons x l =>
    change (l.foldl (· + ·) x).isFinite = true at h
    induction l generalizing x with
    | nil => simpa using h
    | cons y l ih =>
      obtain ⟨hsum, hl⟩ := List.forall_mem_cons.mp (ih (x + y) h)
      obtain ⟨hx, hy⟩ := isFinite_of_add hsum
      exact List.forall_mem_cons.mpr ⟨hx, List.forall_mem_cons.mpr ⟨hy, hl⟩⟩

/-- A sum of terms that are not below zero is not below zero. -/
theorem not_lt_zero_total {l : List Float} (h : ∀ y ∈ l, ¬y < 0) : ¬Mat.total l < 0 := by
  cases l with
  | nil => exact isMagnitude_iff.mp (parts_zero ▸ .zero .positive)
  | cons x l =>
    change ¬l.foldl (· + ·) x < 0
    induction l generalizing x with
    | nil => exact h x (List.mem_cons_self ..)
    | cons y l ih =>
      obtain ⟨hx, hrest⟩ := List.forall_mem_cons.mp h
      obtain ⟨hy, hl⟩ := List.forall_mem_cons.mp hrest
      exact ih (x + y) (List.forall_mem_cons.mpr ⟨not_lt_zero_add hx hy, hl⟩)

variable {ι : Type} {f : ι → Float} {g : ι → ℝ}

/-- Adding up amounts that are each off by at most `d`: the induction is on the numbers that are
still to be added, with the sum so far and its bound generalized. -/
theorem atMost_foldl {l : List ι} (hx : AtMost x (bound N c p)) (hc : 0 ≤ c) (hd : 0 ≤ d)
    (hp : 0 ≤ p) (hf : ∀ i ∈ l, AtMost (f i) (bound N d (g i))) (hg : ∀ i ∈ l, 0 ≤ g i)
    (hfits : bound (N + l.length) (c + l.length * (d + smallest)) (p + (l.map g).sum) < overflow) :
    AtMost ((l.map f).foldl (· + ·) x)
      (bound (N + l.length) (c + l.length * (d + smallest)) (p + (l.map g).sum)) := by
  induction l generalizing x N c p with
  | nil => simpa using hx
  | cons i l ih =>
    have hsmall := smallest_pos
    obtain ⟨hfi, hfl⟩ := List.forall_mem_cons.mp hf
    obtain ⟨hgi, hgl⟩ := List.forall_mem_cons.mp hg
    have hsum : 0 ≤ (l.map g).sum := List.sum_nonneg (by simpa using hgl)
    have hrest : (0 : ℝ) ≤ l.length * (d + smallest) := by positivity
    have hcount : c + (i :: l).length * (d + smallest) =
        c + d + smallest + l.length * (d + smallest) := by
      push_cast [List.length_cons]
      ring
    have htotal : p + ((i :: l).map g).sum = p + g i + (l.map g).sum := by
      rw [List.map_cons, List.sum_cons, add_assoc]
    have hsteps : N + (i :: l).length = N + 1 + l.length := by
      rw [List.length_cons]
      omega
    rw [hcount, htotal, hsteps] at hfits ⊢
    have hstep : AtMost (x + f i) (bound (N + 1) (c + d + smallest) (p + g i)) := by
      refine hx.add_bound hfi (lt_of_le_of_lt (bound_le_bound ?_ ?_ ?_ ?_ ?_) hfits)
      · omega
      · exact le_add_of_nonneg_right hrest
      · exact le_add_of_nonneg_right hsum
      · positivity
      · positivity
    refine ih hstep (by positivity) (by positivity) ?_ hgl hfits
    intro j hj
    exact (hfl j hj).mono (bound_le_bound (Nat.le_succ N) le_rfl le_rfl hd (hgl j hj))

/-- The sum of a list is within the sum of the bounds of its terms, with a step for each term. -/
theorem atMost_total {l : List ι} (hd : 0 ≤ d)
    (hf : ∀ i ∈ l, AtMost (f i) (bound N d (g i))) (hg : ∀ i ∈ l, 0 ≤ g i)
    (hfits : bound (N + l.length) (l.length * (d + smallest)) (l.map g).sum < overflow) :
    AtMost (Mat.total (l.map f))
      (bound (N + l.length) (l.length * (d + smallest)) (l.map g).sum) := by
  cases l with
  | nil =>
    have hbound : bound N 0 0 = 0 := by simp [bound]
    have hzero : AtMost 0 (bound N 0 0) := atMost_of_zero parts_zero hbound.ge
    simpa [Mat.total] using hzero
  | cons i l =>
    have hsmall := smallest_pos
    obtain ⟨hfi, hfl⟩ := List.forall_mem_cons.mp hf
    obtain ⟨hgi, hgl⟩ := List.forall_mem_cons.mp hg
    have hsum : 0 ≤ (l.map g).sum := List.sum_nonneg (by simpa using hgl)
    have hle : bound (N + l.length) (d + l.length * (d + smallest)) (g i + (l.map g).sum) ≤
        bound (N + (i :: l).length) ((i :: l).length * (d + smallest)) ((i :: l).map g).sum := by
      refine bound_le_bound ?_ ?_ ?_ (by positivity) (by positivity)
      · simp
      · push_cast [List.length_cons]
        linarith
      · simp
    exact (atMost_foldl hfi hd hd hgi hfl hgl (hle.trans_lt hfits)).mono hle

end Totals

section Products

variable {m n : ℕ} {A : Mat Float m n} {v : Vector Float n} {i : Fin m}

/-- An entry of the product of the magnitudes of a matrix and a column. -/
theorem mulVec_abs_get (A : Mat Float m n) (v : Vector Float n) (i : Fin m) :
    ((A.map Scalar.abs).mulVec v).get i =
      Mat.total ((List.finRange n).map fun j => (A i j).abs * v.get j) := by
  simp only [Mat.mulVec_get_eq_total, Mat.map_apply]
  rfl

/-- A product with magnitudes is not below zero if the column is not. -/
theorem not_lt_zero_mulVec (hv : ∀ j, ¬v.get j < 0) :
    ¬((A.map Scalar.abs).mulVec v).get i < 0 := by
  rw [mulVec_abs_get]
  apply not_lt_zero_total
  rw [List.forall_mem_map]
  exact fun j _ => not_lt_zero_mul (not_lt_zero_abs _) (hv j)

/-- A sum of products is finite only if all its factors are. -/
theorem isFinite_of_mulVec (h : (((A.map Scalar.abs).mulVec v).get i).isFinite = true) (j : Fin n) :
    (A i j).isFinite = true ∧ (v.get j).isFinite = true := by
  rw [mulVec_abs_get] at h
  have hproduct := isFinite_of_total h _ (List.mem_map_of_mem (List.mem_finRange j))
  obtain ⟨hA, hv⟩ := isFinite_of_mul hproduct
  exact ⟨isFinite_abs (A i j) ▸ hA, hv⟩

/-- An entry of a product with magnitudes is within the product of the bounds, with a step for each
term. -/
theorem atMost_mulVec {q : Fin n → ℝ} (hA : ∀ j, (A i j).isFinite = true)
    (hv : ∀ j, AtMost (v.get j) (bound N c (q j))) (hc : 0 ≤ c) (hq : ∀ j, 0 ≤ q j)
    (hfits : bound (N + n + 1) (n * (overflow * c + 2 * smallest)) (∑ j, |value (A i j)| * q j) <
      overflow) :
    AtMost (((A.map Scalar.abs).mulVec v).get i)
      (bound (N + n + 1) (n * (overflow * c + 2 * smallest)) (∑ j, |value (A i j)| * q j)) := by
  have hsmall := smallest_pos
  have hoverflow := overflow_pos
  have hterm (j : Fin n) : 0 ≤ |value (A i j)| * q j := mul_nonneg (abs_nonneg _) (hq j)
  have hproduct (j : Fin n) : AtMost ((A i j).abs * v.get j)
      (bound (N + 1) (overflow * c + smallest) (|value (A i j)| * q j)) := by
    have hn : (1 : ℝ) ≤ n := Nat.one_le_cast.mpr (Nat.lt_of_le_of_lt (Nat.zero_le j) j.isLt)
    have hle : bound (N + 1) (|value (A i j)| * c + smallest) (|value (A i j)| * q j) ≤
        bound (N + 1) (overflow * c + smallest) (|value (A i j)| * q j) := by
      refine bound_le_bound le_rfl ?_ le_rfl (by positivity) (hterm j)
      gcongr
      exact abs_value_le _
    have hsum : |value (A i j)| * q j ≤ ∑ j, |value (A i j)| * q j :=
      Finset.single_le_sum (fun j _ => hterm j) (Finset.mem_univ j)
    have hlt : bound (N + 1) (overflow * c + smallest) (|value (A i j)| * q j) < overflow := by
      refine lt_of_le_of_lt (bound_le_bound ?_ ?_ hsum (by positivity) (hterm j)) hfits
      · omega
      · have hone : 0 ≤ overflow * c + 2 * smallest := by positivity
        nlinarith
    exact ((atMost_abs (hA j)).mul_bound (hv j) (hle.trans_lt hlt)).mono hle
  -- Each product takes one step, and the sum one more for each term.
  have htotal := atMost_total (l := List.finRange n) (d := overflow * c + smallest)
    (by positivity) (fun j _ => hproduct j) (fun j _ => hterm j)
  have hlength : (List.finRange n).length = n := List.length_finRange
  have hslack : (n : ℝ) * (overflow * c + smallest + smallest) =
      n * (overflow * c + 2 * smallest) := by ring
  have hsteps : N + 1 + n = N + n + 1 := by omega
  rw [hlength, hslack, hsteps, ← Fin.sum_univ_def] at htotal
  rw [mulVec_abs_get]
  exact htotal hfits

end Products

end ErrorBudget.Double
