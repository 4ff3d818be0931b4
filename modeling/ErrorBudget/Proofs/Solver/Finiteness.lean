import ErrorBudget.Proofs.Double.Sums
import ErrorBudget.Proofs.Exact.Propagation
import ErrorBudget.Proofs.Propagation
import ErrorBudget.Proofs.Solver.Completeness

/-!
# Finite errors

A solve that succeeds in floating-point arithmetic reports no negative error, but it may report
infinite and undefined ones. It does so if a partial derivative is infinite, or if the errors lead
beyond the finite numbers. In all other cases the reported errors are finite: it is enough that the
partial derivatives are finite, and that the same propagation over exact numbers stays below a limit
close to the largest finite number (`Solver.errors_of_solve`).
-/

set_option autoImplicit false

namespace ErrorBudget

open Double

namespace Point

/-- Whether all numbers of a point are finite. -/
def IsFinite (p : Point Float) : Prop :=
  ∀ (x : String) (y : Float), p[x]? = some y → y.isFinite = true

/-- A point is finite exactly if all its entries are. -/
theorem isFinite_iff {p : Point Float} :
    p.IsFinite ↔ ∀ entry ∈ p.toList, entry.2.isFinite = true := by
  simp only [IsFinite, Prod.forall, Std.ExtTreeMap.mem_toList_iff_getElem?_eq_some]

/-- Whether a point is finite can be computed from its entries. -/
instance (p : Point Float) : Decidable p.IsFinite :=
  decidable_of_iff _ isFinite_iff.symm

/-- The point of the exact values. -/
noncomputable def exact (p : Point Float) : Point ℝ := Std.ExtTreeMap.map (fun _ => value) p

/-- Every entry of a finite point is finite, and so is the zero of a missing one. -/
theorem IsFinite.getD {p : Point Float} (h : p.IsFinite) (x : String) :
    (p.getD x 0).isFinite = true := by
  rw [Std.ExtTreeMap.getD_eq_getD_getElem?]
  cases hx : p[x]? with
  | none => rfl
  | some y => exact h x y hx

/-- The exact value of an entry, which is zero where it is missing. -/
theorem getD_exact (p : Point Float) (x : String) : p.exact.getD x 0 = value (p.getD x 0) := by
  rw [exact, Std.ExtTreeMap.getD_map, Std.ExtTreeMap.getD_eq_getD_getElem?]
  cases p[x]? with
  | none => exact (value_of_zero parts_zero).symm
  | some y => rfl

end Point

namespace Combination

variable {x : Float} {r : ℝ}

/-- No exact weight is negative. -/
theorem weigh_nonneg (how : Combination) (x : ℝ) : 0 ≤ how.weigh x := by
  cases how with
  | linear => exact abs_nonneg x
  | quadrature => exact mul_self_nonneg x

/-- No weight is below zero. -/
theorem not_lt_zero_weigh (how : Combination) (x : Float) : ¬how.weigh x < 0 := by
  cases how with
  | linear => exact not_lt_zero_abs x
  | quadrature =>
    change ¬x * x < 0
    rw [← abs_mul_abs]
    exact not_lt_zero_mul (not_lt_zero_abs x) (not_lt_zero_abs x)

/-- What a weight stands for is not below zero. -/
theorem not_lt_zero_unweigh (how : Combination) (hx : ¬x < 0) : ¬how.unweigh x < 0 := by
  cases how with
  | linear => exact hx
  | quadrature => exact not_lt_zero_sqrt hx

/-- An error is finite only if its weight is. -/
theorem isFinite_of_unweigh {how : Combination} (h : (how.unweigh x).isFinite = true) :
    x.isFinite = true := by
  cases how with
  | linear => exact h
  | quadrature => exact isFinite_of_sqrt h

/-- A bounded weight stands for a finite error. -/
theorem isFinite_unweigh (how : Combination) (hx : AtMost x r) :
    (how.unweigh x).isFinite = true := by
  cases how with
  | linear => exact hx.isFinite
  | quadrature => exact hx.isFinite_sqrt

/-- Squaring rounds, taking the magnitude does not. -/
theorem atMost_weigh {how : Combination} (hx : x.isFinite = true)
    (hfits : bound 1 smallest (how.weigh (value x)) < overflow) :
    AtMost (how.weigh x) (bound 1 smallest (how.weigh (value x))) := by
  have habs := atMost_abs hx
  have hsmall := smallest_pos.le
  have hexact : bound 0 0 |value x| = |value x| := by simp [bound]
  cases how with
  | linear =>
    exact habs.mono (hexact.ge.trans
      (bound_le_bound (Nat.zero_le 1) hsmall le_rfl le_rfl (abs_nonneg _)))
  | quadrature =>
    have hsquare : |value x| * |value x| = quadrature.weigh (value x) := abs_mul_abs_self _
    have hproduct := habs.mul_bound (hexact.symm ▸ habs)
    rw [hsquare, mul_zero, zero_add, zero_add, abs_mul_abs] at hproduct
    exact hproduct hfits

end Combination

namespace Jacobian

variable {J : Jacobian Float} {square : J.IsSquare}
  {inverse : Mat Float J.unknown.length J.unknown.length} {how : Combination}
  {values errors : Point Float} {constants : Option (Point Float)}

/-- The Jacobian of the exact values of the derivatives. -/
noncomputable def exact (J : Jacobian Float) : Jacobian ℝ where
  equations := J.equations
  unknown := J.unknown
  known := J.known
  cells := J.cells.map value

/-- The derivatives that errors are multiplied by are finite. If there are constant components,
those with respect to the unknown variables are among them. -/
structure HasFiniteDerivatives (J : Jacobian Float) (constants : Option (Point Float)) : Prop where
  known : ∀ i j, (J.knownBlock i j).isFinite = true
  unknown : (someConstants? constants).isSome → ∀ i j, (J.unknownBlock i j).isFinite = true

/-- All that is added up on the way to the errors stays below the limit over exact numbers, with the
inverse as it was computed. -/
structure Fits (J : Jacobian Float) (square : J.IsSquare)
    (inverse : Mat Float J.unknown.length J.unknown.length) (how : Combination)
    (errors : Point Float) (constants : Option (Point Float)) : Prop where
  length_columns_le : J.columns.length ≤ 2 ^ 16
  known_le : ∀ j : Fin J.known.length,
    (J.exact.knownWeights how errors.exact (constants.map Point.exact)).get j ≤ limit
  component_le : ∀ j : Fin J.unknown.length,
    how.weigh (component (constants.map Point.exact) (J.unknown.get j)) ≤ limit
  sources_le : ∀ k : Fin J.equations,
    (J.exact.sources how errors.exact (constants.map Point.exact)).get k ≤ limit
  unknown_le : ∀ i : Fin J.unknown.length,
    (J.exact.unknownWeights square (inverse.map value) how errors.exact
      (constants.map Point.exact)).get i ≤ limit

section Weights

/-- No weight in a column is below zero. -/
theorem not_lt_zero_column (how : Combination) (p : Point Float) (names : List String)
    (i : Fin names.length) : ¬(how.column p names).get i < 0 := by
  rw [Combination.column_get]
  exact how.not_lt_zero_weigh _

/-- No weight of a known variable is below zero. -/
theorem not_lt_zero_knownWeights (J : Jacobian Float) (how : Combination) (errors : Point Float)
    (constants : Option (Point Float)) (j : Fin J.known.length) :
    ¬(J.knownWeights how errors constants).get j < 0 := by
  unfold knownWeights
  cases someConstants? constants with
  | none => exact not_lt_zero_column how errors J.known j
  | some c =>
    rw [Mat.addVec_get]
    exact not_lt_zero_add (not_lt_zero_column how errors J.known j)
      (not_lt_zero_column how c J.known j)

/-- No source is below zero. -/
theorem not_lt_zero_sources (J : Jacobian Float) (how : Combination) (errors : Point Float)
    (constants : Option (Point Float)) (k : Fin J.equations) :
    ¬(J.sources how errors constants).get k < 0 := by
  have hknown := not_lt_zero_mulVec (A := J.knownBlock) (i := k)
    (J.not_lt_zero_knownWeights how errors constants)
  unfold sources
  cases someConstants? constants with
  | none => exact hknown
  | some c =>
    rw [Mat.addVec_get]
    exact not_lt_zero_add hknown (not_lt_zero_mulVec (not_lt_zero_column how c J.unknown))

/-- No weight of an unknown variable is below zero. -/
theorem not_lt_zero_unknownWeights (i : Fin J.unknown.length) :
    ¬(J.unknownWeights square inverse how errors constants).get i < 0 := by
  rw [unknownWeights_eq]
  apply not_lt_zero_mulVec
  intro k
  rw [sources_cast_get]
  exact J.not_lt_zero_sources how errors constants _

/-- An unknown variable depends on all derivatives that enter the equations: none of them is lost,
not even where its factor is zero. -/
theorem hasFiniteDerivatives_of_unknownWeights {i : Fin J.unknown.length}
    (h : ((J.unknownWeights square inverse how errors constants).get i).isFinite = true) :
    J.HasFiniteDerivatives constants := by
  have hsources (k : Fin J.equations) :
      ((J.sources how errors constants).get k).isFinite = true := by
    rw [unknownWeights_eq] at h
    have hsource := (isFinite_of_mulVec h (k.cast square)).2
    rwa [sources_cast_get] at hsource
  unfold sources at hsources
  cases hsome : someConstants? constants with
  | none =>
    simp only [hsome] at hsources
    refine ⟨fun k j => (isFinite_of_mulVec (hsources k) j).1, ?_⟩
    simp [hsome]
  | some c =>
    simp only [hsome, Mat.addVec_get] at hsources
    constructor
    · intro k j
      exact (isFinite_of_mulVec (isFinite_of_add (hsources k)).1 j).1
    · intro _ k j
      exact (isFinite_of_mulVec (isFinite_of_add (hsources k)).2 j).1

end Weights

section Exact

/-- Constant components that are used are those that are given. -/
theorem eq_some_of_someConstants? {c : Point Float} (h : someConstants? constants = some c) :
    constants = some c :=
  (Option.filter_eq_some_iff.mp h).1

/-- The exact constant component of a variable, if components are used. -/
theorem component_exact {c : Point Float} (h : someConstants? constants = some c) (x : String) :
    component (constants.map Point.exact) x = value (c.getD x 0) := by
  rw [eq_some_of_someConstants? h]
  exact Point.getD_exact c x

/-- The exact weight of a known variable. -/
theorem knownWeights_exact_get (j : Fin J.known.length) :
    (J.exact.knownWeights how errors.exact (constants.map Point.exact)).get j =
      how.weigh (value (errors.getD (J.known.get j) 0)) +
        how.weigh (component (constants.map Point.exact) (J.known.get j)) := by
  rw [← Point.getD_exact]
  exact knownWeights_get J.exact how errors.exact _ j

/-- An exact entry in the columns of the known variables. -/
theorem knownBlock_exact (J : Jacobian Float) (k : Fin J.equations) (j : Fin J.known.length) :
    J.exact.knownBlock k j = value (J.knownBlock k j) :=
  calc J.exact.knownBlock k j
    _ = J.cells.map value k (j.natAdd J.unknown.length) := Mat.ofFn_apply ..
    _ = value (J.cells k (j.natAdd J.unknown.length)) := Mat.map_apply ..
    _ = value (J.knownBlock k j) := by rw [knownBlock, Mat.ofFn_apply]

/-- An exact entry in the columns of the unknown variables. -/
theorem unknownBlock_exact (J : Jacobian Float) (k : Fin J.equations)
    (j : Fin J.unknown.length) : J.exact.unknownBlock k j = value (J.unknownBlock k j) :=
  calc J.exact.unknownBlock k j
    _ = J.cells.map value k (j.castAdd J.known.length) := Mat.ofFn_apply ..
    _ = value (J.cells k (j.castAdd J.known.length)) := Mat.map_apply ..
    _ = value (J.unknownBlock k j) := by rw [unknownBlock, Mat.ofFn_apply]

/-- The exact source of an equation. -/
theorem sources_exact_get (k : Fin J.equations) :
    (J.exact.sources how errors.exact (constants.map Point.exact)).get k =
      ∑ j, |value (J.knownBlock k j)| *
          (J.exact.knownWeights how errors.exact (constants.map Point.exact)).get j +
        ∑ j, |value (J.unknownBlock k j)| *
          how.weigh (component (constants.map Point.exact) (J.unknown.get j)) := by
  simp only [← knownBlock_exact, ← unknownBlock_exact]
  exact sources_get J.exact how errors.exact _ k

/-- The exact weight of an unknown variable. -/
theorem unknownWeights_exact_get (i : Fin J.unknown.length) :
    (J.exact.unknownWeights square (inverse.map value) how errors.exact
        (constants.map Point.exact)).get i =
      ∑ k, |value (inverse i k)| * (J.exact.sources how errors.exact
        (constants.map Point.exact)).get (k.cast square.symm) := by
  simp only [← Mat.map_apply value inverse]
  exact unknownWeights_eq_sum J.exact square (inverse.map value) how errors.exact _ i

end Exact

section Bounds

/-- Every entry of an inverse that is used is finite. -/
theorem isFinite_of_inverse? (h : J.inverse? square = some inverse) (i k : Fin J.unknown.length) :
    (inverse i k).isFinite = true := by
  have hall := (Option.filter_eq_some_iff.mp h).2
  simp only [Mat.all, Vector.all_eq_true] at hall
  exact hall i i.isLt k k.isLt

/-- No exact weight of a known variable is negative. -/
theorem knownWeights_exact_nonneg (j : Fin J.known.length) :
    0 ≤ (J.exact.knownWeights how errors.exact (constants.map Point.exact)).get j := by
  rw [knownWeights_exact_get]
  exact add_nonneg (how.weigh_nonneg _) (how.weigh_nonneg _)

/-- No exact sum over the known variables is negative. -/
theorem sum_knownWeights_nonneg (J : Jacobian Float) (how : Combination) (errors : Point Float)
    (constants : Option (Point Float)) (k : Fin J.equations) :
    0 ≤ ∑ j, |value (J.knownBlock k j)| *
      (J.exact.knownWeights how errors.exact (constants.map Point.exact)).get j :=
  Finset.sum_nonneg fun j _ => mul_nonneg (abs_nonneg _) (knownWeights_exact_nonneg j)

/-- No exact sum over the constant components is negative. -/
theorem sum_component_nonneg (J : Jacobian Float) (how : Combination)
    (constants : Option (Point Float)) (k : Fin J.equations) :
    0 ≤ ∑ j, |value (J.unknownBlock k j)| *
      how.weigh (component (constants.map Point.exact) (J.unknown.get j)) :=
  Finset.sum_nonneg fun _ _ => mul_nonneg (abs_nonneg _) (how.weigh_nonneg _)

/-- No exact source is negative. -/
theorem sources_exact_nonneg (k : Fin J.equations) :
    0 ≤ (J.exact.sources how errors.exact (constants.map Point.exact)).get k := by
  rw [sources_exact_get]
  exact add_nonneg (sum_knownWeights_nonneg ..) (sum_component_nonneg ..)

/-- A weight is computed with two roundings, and squares may vanish that add up to more than
nothing. -/
theorem bound_weight_lt {q : ℝ} (hq : q ≤ limit) : bound 2 (3 * smallest) q < overflow := by
  refine bound_lt (by norm_num) ?_ hq
  have hsmall := smallest_le
  have hoverflow := one_le_overflow
  norm_num at hsmall ⊢
  linarith

/-- A weight that is not too large is within a bound of its exact value, after one rounding. -/
theorem atMost_weight (how : Combination) {p : Point Float} (hp : p.IsFinite) (x : String)
    (hfits : how.weigh (value (p.getD x 0)) ≤ limit) :
    AtMost (how.weigh (p.getD x 0)) (bound 1 smallest (how.weigh (value (p.getD x 0)))) := by
  have hsmall := smallest_pos.le
  refine Combination.atMost_weigh (hp.getD x) (lt_of_le_of_lt ?_ (bound_weight_lt hfits))
  exact bound_le_bound one_le_two (by linarith) le_rfl hsmall (how.weigh_nonneg _)

/-- The weight of a known variable is within a bound of its exact value, after two roundings. -/
theorem atMost_knownWeights (herrors : errors.IsFinite) (hconstants : ∀ c ∈ constants, c.IsFinite)
    {j : Fin J.known.length}
    (hfits : (J.exact.knownWeights how errors.exact (constants.map Point.exact)).get j ≤ limit) :
    AtMost ((J.knownWeights how errors constants).get j) (bound 2 (3 * smallest)
      ((J.exact.knownWeights how errors.exact (constants.map Point.exact)).get j)) := by
  have hsmall := smallest_pos.le
  rw [knownWeights_exact_get] at hfits ⊢
  have hgiven := how.weigh_nonneg (value (errors.getD (J.known.get j) 0))
  have hconstant := how.weigh_nonneg (component (constants.map Point.exact) (J.known.get j))
  have herror := atMost_weight how herrors (J.known.get j) (by linarith)
  unfold knownWeights
  cases hsome : someConstants? constants with
  | none =>
    dsimp only
    rw [Combination.column_get]
    exact herror.mono (bound_le_bound one_le_two (by linarith) (by linarith) hsmall hgiven)
  | some c =>
    have hc : c.IsFinite := hconstants c (eq_some_of_someConstants? hsome)
    rw [component_exact hsome] at hfits hconstant ⊢
    have hcomponent := atMost_weight how hc (J.known.get j) (by linarith)
    have hthree : smallest + smallest + smallest = 3 * smallest := by ring
    have hsum := herror.add_bound hcomponent
    rw [hthree] at hsum
    dsimp only
    rw [Mat.addVec_get, Combination.column_get, Combination.column_get]
    exact hsum (bound_weight_lt hfits)

/-- Given tolerances are reported as they are. -/
theorem isFinite_knownWeights (herrors : errors.IsFinite) (hnone : someConstants? constants = none)
    (j : Fin J.known.length) :
    ((J.knownWeights .linear errors constants).get j).isFinite = true := by
  unfold knownWeights
  simp only [hnone]
  rw [Combination.column_get]
  exact (isFinite_abs _).trans (herrors.getD _)

/-- The weights of up to `2 ^ 16` variables enter an equation. -/
theorem atMost_product {m n : ℕ} {A : Mat Float m n} {v : Vector Float n} {k : Fin m}
    {q : Fin n → ℝ} (hn : n ≤ 2 ^ 16) (hA : ∀ j, (A k j).isFinite = true)
    (hv : ∀ j, AtMost (v.get j) (bound 2 (3 * smallest) (q j))) (hq : ∀ j, 0 ≤ q j)
    (hfits : ∑ j, |value (A k j)| * q j ≤ limit) :
    AtMost (((A.map Scalar.abs).mulVec v).get k)
      (bound (2 ^ 16 + 3) (2 ^ (-31 : ℤ)) (∑ j, |value (A k j)| * q j)) := by
  have hsmall := smallest_pos
  have hle := smallest_le
  have hoverflow := one_le_overflow
  have hcount : (n : ℝ) ≤ 2 ^ 16 := by exact_mod_cast hn
  have hslack : (n : ℝ) * (overflow * (3 * smallest) + 2 * smallest) ≤ 2 ^ (-31 : ℤ) :=
    calc (n : ℝ) * (overflow * (3 * smallest) + 2 * smallest)
      _ = n * (3 * (overflow * smallest) + 2 * smallest) := by ring
      _ ≤ 2 ^ 16 * (3 * 2 ^ (-50 : ℤ) + 2 * 2 ^ (-50 : ℤ)) := by
        rw [overflow_mul_smallest]
        gcongr
      _ ≤ 2 ^ (-31 : ℤ) := by norm_num
  have hsum : 0 ≤ ∑ j, |value (A k j)| * q j :=
    Finset.sum_nonneg fun j _ => mul_nonneg (abs_nonneg _) (hq j)
  have hsteps : 2 + n + 1 ≤ 2 ^ 16 + 3 := by omega
  have hbound := bound_le_bound hsteps hslack le_rfl (by positivity) hsum
  refine (atMost_mulVec hA hv (by positivity) hq (hbound.trans_lt ?_)).mono hbound
  refine bound_lt (by norm_num) ?_ hfits
  norm_num
  linarith

/-- A source that is not too large stays below the overflow threshold. -/
theorem bound_sources_lt {q : ℝ} (hq : q ≤ limit) :
    bound (2 ^ 16 + 4) (2 ^ (-29 : ℤ)) q < overflow := by
  refine bound_lt (by norm_num) ?_ hq
  have hoverflow := one_le_overflow
  norm_num
  linarith

/-- A system that fits has at most `2 ^ 16` variables of each kind. -/
theorem Fits.length_le (h : J.Fits square inverse how errors constants) :
    J.unknown.length ≤ 2 ^ 16 ∧ J.known.length ≤ 2 ^ 16 := by
  have hcolumns := h.length_columns_le
  rw [length_columns] at hcolumns
  omega

/-- The weight of a constant component is within a bound of its exact value. -/
theorem Fits.atMost_component {c : Point Float}
    (h : J.Fits square inverse how errors constants) (hsome : someConstants? constants = some c)
    (hconstants : ∀ c ∈ constants, c.IsFinite) (j : Fin J.unknown.length) :
    AtMost ((how.column c J.unknown).get j) (bound 2 (3 * smallest)
      (how.weigh (component (constants.map Point.exact) (J.unknown.get j)))) := by
  have hc : c.IsFinite := hconstants c (eq_some_of_someConstants? hsome)
  have hsmall := smallest_pos.le
  have hfits := h.component_le j
  rw [component_exact hsome] at hfits ⊢
  rw [Combination.column_get]
  exact (atMost_weight how hc _ hfits).mono
    (bound_le_bound one_le_two (by linarith) le_rfl hsmall (how.weigh_nonneg _))

/-- A source is within a bound of its exact value. -/
theorem Fits.atMost_sources (h : J.Fits square inverse how errors constants)
    (hJ : J.HasFiniteDerivatives constants) (herrors : errors.IsFinite)
    (hconstants : ∀ c ∈ constants, c.IsFinite) (k : Fin J.equations) :
    AtMost ((J.sources how errors constants).get k) (bound (2 ^ 16 + 4) (2 ^ (-29 : ℤ))
      ((J.exact.sources how errors.exact (constants.map Point.exact)).get k)) := by
  have hlength := h.length_le
  have hsmall := smallest_pos.le
  have hle := smallest_le
  have hfits := h.sources_le k
  rw [sources_exact_get] at hfits ⊢
  have hknown_nonneg := sum_knownWeights_nonneg J how errors constants k
  have hown_nonneg := sum_component_nonneg J how constants k
  have hknown := atMost_product hlength.2 (hJ.known k)
    (fun j => atMost_knownWeights herrors hconstants (h.known_le j)) knownWeights_exact_nonneg
    (by linarith)
  unfold sources
  cases hsome : someConstants? constants with
  | none =>
    refine hknown.mono (bound_le_bound (by norm_num) (by norm_num) ?_ (by positivity)
      hknown_nonneg)
    exact le_add_of_nonneg_right hown_nonneg
  | some c =>
    have hown := atMost_product hlength.1 (hJ.unknown (by simp [hsome]) k)
      (h.atMost_component hsome hconstants) (fun j => how.weigh_nonneg _) (by linarith)
    have hslack : (2 : ℝ) ^ (-31 : ℤ) + 2 ^ (-31 : ℤ) + smallest ≤ 2 ^ (-29 : ℤ) := by
      norm_num at hle ⊢
      linarith
    have hsteps : 2 ^ 16 + 3 + 1 ≤ 2 ^ 16 + 4 := le_rfl
    have hbound := bound_le_bound hsteps hslack le_rfl (by positivity)
      (add_nonneg hknown_nonneg hown_nonneg)
    dsimp only
    rw [Mat.addVec_get]
    exact (hknown.add_bound hown (hbound.trans_lt (bound_sources_lt hfits))).mono hbound

/-- The weight of an unknown variable has a bound. -/
theorem Fits.exists_atMost_unknownWeights (h : J.Fits square inverse how errors constants)
    (hinverse : J.inverse? square = some inverse)
    (hJ : J.HasFiniteDerivatives constants) (herrors : errors.IsFinite)
    (hconstants : ∀ c ∈ constants, c.IsFinite) (i : Fin J.unknown.length) :
    ∃ r, AtMost ((J.unknownWeights square inverse how errors constants).get i) r := by
  have hequations : J.equations = J.unknown.length := square
  have hlength := h.length_le.1
  have hcount : (J.unknown.length : ℝ) ≤ 2 ^ 16 := by exact_mod_cast hlength
  have hsmall := smallest_pos
  have hle := smallest_le
  have hoverflow := one_le_overflow
  have hsources (k : Fin J.unknown.length) := h.atMost_sources hJ herrors hconstants
    (k.cast hequations.symm)
  have hfits := h.unknown_le i
  rw [unknownWeights_exact_get] at hfits
  have hslack : (J.unknown.length : ℝ) * (overflow * 2 ^ (-29 : ℤ) + 2 * smallest) ≤
      overflow * 2 ^ (-11 : ℤ) :=
    calc (J.unknown.length : ℝ) * (overflow * 2 ^ (-29 : ℤ) + 2 * smallest)
      _ ≤ 2 ^ 16 * (overflow * 2 ^ (-29 : ℤ) + 2 * 2 ^ (-50 : ℤ)) := by gcongr
      _ ≤ overflow * 2 ^ (-11 : ℤ) := by
        norm_num
        linarith
  rw [unknownWeights_eq]
  refine ⟨_, atMost_mulVec (isFinite_of_inverse? hinverse i)
    (fun k => (J.sources_cast_get square how errors constants k).symm ▸ hsources k) (by positivity)
    (fun k => sources_exact_nonneg _) (bound_lt ?_ hslack hfits)⟩
  omega

end Bounds

/-- The error in a row is the one that the weight of its variable stands for. -/
theorem errors_eq_of_propagate {t : Table Float}
    (h : J.propagate how values errors constants = .ok t) :
    ∃ (square : J.IsSquare) (inverse : Mat Float J.unknown.length J.unknown.length),
      J.inverse? square = some inverse ∧ ∀ row ∈ t.rows,
        (row.isCalculated = true ∧ ∃ i, row.error =
          how.unweigh ((J.unknownWeights square inverse how errors constants).get i)) ∨
        (row.isCalculated = false ∧ ∃ j, row.error =
          how.unweigh ((J.knownWeights how errors constants).get j)) := by
  obtain ⟨square, inverse, hinverse, -, rfl⟩ := propagate_eq_ok_iff.mp h
  refine ⟨square, inverse, hinverse, ?_⟩
  intro row hrow
  rw [(Table.ofRows_perm _).mem_iff, List.mem_append, rowsAt, rowsAt, List.mem_ofFn,
    List.mem_ofFn] at hrow
  rcases hrow with ⟨i, rfl⟩ | ⟨j, rfl⟩
  · exact .inl ⟨rfl, i, Vector.getElem_map how.unweigh i.isLt⟩
  · exact .inr ⟨rfl, j, Vector.getElem_map how.unweigh j.isLt⟩

/-- What propagation says about the errors that it reports. -/
theorem errors_of_propagate {t : Table Float} (herrors : errors.IsFinite)
    (hconstants : ∀ c ∈ constants, c.IsFinite)
    (h : J.propagate how values errors constants = .ok t) :
    (∀ row ∈ t.rows, ¬row.error < 0) ∧
      (how = .linear → someConstants? constants = none →
        ∀ row ∈ t.rows, row.isCalculated = false → row.error.isFinite = true) ∧
      ∃ (square : J.IsSquare) (inverse : Mat Float J.unknown.length J.unknown.length),
        J.inverse? square = some inverse ∧
        (∀ row ∈ t.calculated, row.error.isFinite = true → J.HasFiniteDerivatives constants) ∧
        (J.HasFiniteDerivatives constants → J.Fits square inverse how errors constants →
          ∀ row ∈ t.rows, row.error.isFinite = true) := by
  obtain ⟨square, inverse, hinverse, hrows⟩ := errors_eq_of_propagate h
  refine ⟨?_, ?_, square, inverse, hinverse, ?_, ?_⟩
  · intro row hrow
    rcases hrows row hrow with ⟨-, i, hi⟩ | ⟨-, j, hj⟩
    · rw [hi]
      exact how.not_lt_zero_unweigh (not_lt_zero_unknownWeights i)
    · rw [hj]
      exact how.not_lt_zero_unweigh (not_lt_zero_knownWeights J how errors constants j)
  · rintro rfl hnone row hrow hgiven
    rcases hrows row hrow with ⟨hcalculated, -⟩ | ⟨-, j, hj⟩
    · simp [hgiven] at hcalculated
    · rw [hj]
      exact isFinite_knownWeights herrors hnone j
  · intro row hrow hfinite
    obtain ⟨hmem, hcalculated⟩ := List.mem_filter.mp hrow
    rcases hrows row hmem with ⟨-, i, hi⟩ | ⟨hgiven, -⟩
    · rw [hi] at hfinite
      exact hasFiniteDerivatives_of_unknownWeights (Combination.isFinite_of_unweigh hfinite)
    · simp [hgiven] at hcalculated
  · intro hJ hfits row hrow
    rcases hrows row hrow with ⟨-, i, hi⟩ | ⟨-, j, hj⟩
    · obtain ⟨r, hr⟩ := hfits.exists_atMost_unknownWeights hinverse hJ herrors hconstants i
      rw [hi]
      exact how.isFinite_unweigh hr
    · rw [hj]
      exact how.isFinite_unweigh (atMost_knownWeights herrors hconstants (hfits.known_le j))

end Jacobian

namespace Solver

variable {s : Solver Float} {values errors : Point Float} {options : SolveOptions Float}

/-- Successful solves report no negative errors, and given tolerances are reported as finite as they
are. A calculated error is finite only if the partial derivatives are. All errors are finite if the
partial derivatives are and the propagation stays below the limit over exact numbers. -/
theorem errors_of_solve {t : Table Float} (herrors : errors.IsFinite)
    (hconstants : ∀ c ∈ options.constants, Point.IsFinite c)
    (h : s.solve values errors options = .ok t) :
    (∀ row ∈ t.rows, ¬row.error < 0) ∧
      (options.combination = .linear → Jacobian.someConstants? options.constants = none →
        ∀ row ∈ t.rows, row.isCalculated = false → row.error.isFinite = true) ∧
      ∃ J, s.jacobian values errors options.combo = .ok J ∧
        ∃ (square : J.IsSquare) (inverse : Mat Float J.unknown.length J.unknown.length),
          J.inverse? square = some inverse ∧
          (∀ row ∈ t.calculated, row.error.isFinite = true →
            J.HasFiniteDerivatives options.constants) ∧
          (J.HasFiniteDerivatives options.constants →
            J.Fits square inverse options.combination errors options.constants →
              ∀ row ∈ t.rows, row.error.isFinite = true) := by
  obtain ⟨equations, J, hselect, hJ, ht⟩ := exists_propagate_of_solve h
  have hjacobian : s.jacobian values errors options.combo = .ok J := by
    rw [jacobian_eq, hselect]
    exact mapError_eq_ok_iff.mpr hJ
  obtain ⟨hnonneg, hgiven, hrest⟩ := Jacobian.errors_of_propagate herrors hconstants ht
  exact ⟨hnonneg, hgiven, J, hjacobian, hrest⟩

section Runs

deriving instance DecidableEq for Mat, Jacobian

/-- The Jacobian of `y = 10*x`, with `y` unknown. -/
def tenfold : Jacobian Float where
  equations := 1
  unknown := ["y"]
  known := ["x"]
  cells := Mat.ofFn fun _ j => if j.val = 0 then 1 else -10

/-- The error of `x` in `y = 10*x`. -/
def half : Point Float := NameMap.ofEntries [("x", 0.5)]

/-- The system of `10*x` is solved, and its Jacobian is known. -/
theorem exists_solve_tenfold : ∃ (s : Solver Float) (t : Table Float),
    ofTexts ["y = 10*x"] Config.standard = .ok s ∧
      s.solve (NameMap.ofEntries [("x", 1), ("y", 10)]) half {} = .ok t ∧
      s.jacobian (NameMap.ofEntries [("x", 1), ("y", 10)]) half none = .ok tenfold := by
  have hrun : ((ofTexts ["y = 10*x"] Config.standard :
      Except (Error Float) (Solver Float)).toOption.map fun s =>
        ((s.solve (NameMap.ofEntries [("x", 1), ("y", 10)]) half {}).isOk,
          (s.jacobian (NameMap.ofEntries [("x", 1), ("y", 10)]) half none).toOption)) =
      some (true, some tenfold) := by decide +kernel
  obtain ⟨s, hs, houtcomes⟩ := Option.map_eq_some_iff.mp hrun
  obtain ⟨hok, hJ⟩ := Prod.mk.inj houtcomes
  obtain ⟨t, ht⟩ := exists_eq_ok_of_isOk hok
  exact ⟨s, t, toOption_eq_some_iff.mp hs, ht, toOption_eq_some_iff.mp hJ⟩

/-- The Jacobian of `10*x` is square. -/
theorem isSquare_tenfold : tenfold.IsSquare := rfl

/-- The exact magnitude of the literal `-10`. -/
theorem abs_value_neg_ten : |value (-10)| = 10 := by
  have hparts : parts (Float.abs (-10)) = .finite .positive (10 * 2 ^ 49) (-49) (by decide) := by
    rfl
  rw [← value_abs, value_of_positive hparts]
  norm_num

/-- The exact value of the literal `0.5`. -/
theorem value_half : value 0.5 = 1 / 2 := by
  have hparts : parts 0.5 = .finite .positive (2 ^ 52) (-53) (by decide) := by rfl
  rw [value_of_positive hparts]
  norm_num

/-- The exact value of the literal one. -/
theorem value_one : value 1 = 1 := by
  rw [value_of_positive parts_one]
  norm_num

/-- Ten is far below the limit. -/
theorem ten_le_limit : 10 ≤ limit := by
  have hoverflow : (2 : ℝ) ^ 10 ≤ overflow := by
    rw [overflow_eq]
    exact pow_le_pow_right₀ one_le_two (by decide)
  unfold limit
  linarith

/-- The system of `10*x` fits with an error of a half. -/
theorem fits_tenfold :
    tenfold.Fits isSquare_tenfold (Mat.ofFn fun _ _ => 1) .linear half none := by
  have hblock : ∀ i j, tenfold.knownBlock i j = -10 := by decide +kernel
  have herror : ∀ j, half.getD (tenfold.known.get j) 0 = 0.5 := by decide +kernel
  have hnone (x : String) :
      Jacobian.component ((none : Option (Point Float)).map Point.exact) x = 0 := rfl
  obtain ⟨x, hx⟩ : ∃ x, ∀ f : Fin tenfold.known.length → ℝ, ∑ j, f j = f x :=
    ⟨⟨0, Nat.one_pos⟩, fun f => Fin.sum_univ_one f⟩
  obtain ⟨y, hy⟩ : ∃ y, ∀ f : Fin tenfold.unknown.length → ℝ, ∑ j, f j = f y :=
    ⟨⟨0, Nat.one_pos⟩, fun f => Fin.sum_univ_one f⟩
  have hknown (j : Fin tenfold.known.length) : (tenfold.exact.knownWeights .linear half.exact
      ((none : Option (Point Float)).map Point.exact)).get j = 1 / 2 := by
    rw [Jacobian.knownWeights_exact_get, herror, value_half, hnone]
    norm_num
  have hsources (k : Fin tenfold.equations) : (tenfold.exact.sources .linear half.exact
      ((none : Option (Point Float)).map Point.exact)).get k = 5 := by
    rw [Jacobian.sources_exact_get, hx, hy, hblock, abs_value_neg_ten, hknown, hnone]
    norm_num
  have hlimit := ten_le_limit
  refine ⟨by decide, ?_, ?_, ?_, ?_⟩
  · intro j
    rw [hknown]
    linarith
  · intro j
    rw [hnone, Combination.weigh_zero]
    linarith
  · intro k
    rw [hsources]
    linarith
  · intro i
    rw [Jacobian.unknownWeights_exact_get, hy, Mat.ofFn_apply, value_one, abs_one, one_mul]
    exact (hsources _).trans_le (by linarith)

/-- The error of `10*x` is finite where that of `x` is 0.5. -/
theorem errors_of_solve_tenfold : ∃ (s : Solver Float) (t : Table Float),
    ofTexts ["y = 10*x"] Config.standard = .ok s ∧ half.IsFinite ∧
      s.solve (NameMap.ofEntries [("x", 1), ("y", 10)]) half {} = .ok t ∧
      ∀ row ∈ t.rows, row.error.isFinite = true ∧ ¬row.error < 0 := by
  obtain ⟨s, t, hs, ht, hJ⟩ := exists_solve_tenfold
  have herrors : half.IsFinite := by decide +kernel
  have hconstants : ∀ c ∈ (none : Option (Point Float)), Point.IsFinite c := by simp
  obtain ⟨hnonneg, -, J, hJ', square, inverse, hinverse, -, hfinite⟩ :=
    errors_of_solve herrors hconstants ht
  obtain rfl : tenfold = J := Except.ok.inj (hJ.symm.trans hJ')
  have hinverse' : tenfold.inverse? isSquare_tenfold = some (Mat.ofFn fun _ _ => 1) := by
    decide +kernel
  obtain rfl : inverse = Mat.ofFn fun _ _ => 1 := Option.some.inj (hinverse.symm.trans hinverse')
  have hderivatives : tenfold.HasFiniteDerivatives none :=
    ⟨by decide +kernel, fun h => nomatch h⟩
  exact ⟨s, t, hs, herrors, ht, fun row hrow =>
    ⟨hfinite hderivatives fits_tenfold row hrow, hnonneg row hrow⟩⟩

/-- A solve may succeed and report errors that are not finite. Here ten times the error of `x` lies
beyond the finite numbers. -/
theorem not_isFinite_of_tenfold :
    ¬∀ (s : Solver Float) (values errors : Point Float) (options : SolveOptions Float)
      (t : Table Float), s.Reachable → values.IsFinite → errors.IsFinite →
        (∀ c ∈ options.constants, Point.IsFinite c) → s.solve values errors options = .ok t →
        ∀ row ∈ t.rows, row.error.isFinite = true ∧ ¬row.error < 0 := by
  intro hclaim
  let values : Point Float := NameMap.ofEntries [("x", 1), ("y", 10)]
  let errors : Point Float := NameMap.ofEntries [("x", 1e308)]
  have hrun : ((ofTexts ["y = 10*x"] Config.standard :
      Except (Error Float) (Solver Float)).toOption.bind fun s =>
        (s.solve values errors {}).toOption).map
          (fun t => t.rows.all fun row => row.error.isFinite) = some false := by decide +kernel
  obtain ⟨t, hsolve, hfinite⟩ := Option.map_eq_some_iff.mp hrun
  obtain ⟨s, hs, ht⟩ := Option.bind_eq_some_iff.mp hsolve
  have herrors := hclaim s values errors {} t (.ofTexts (toOption_eq_some_iff.mp hs))
    (by decide +kernel) (by decide +kernel) (by simp) (toOption_eq_some_iff.mp ht)
  rw [List.all_eq_true.mpr fun row hrow => (herrors row hrow).1] at hfinite
  contradiction

end Runs

end Solver

end ErrorBudget
