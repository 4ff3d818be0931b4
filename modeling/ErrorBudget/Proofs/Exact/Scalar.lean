import ErrorBudget.Scalar
import Mathlib.Analysis.SpecialFunctions.Arcosh
import Mathlib.Analysis.SpecialFunctions.Arsinh
import Mathlib.Analysis.SpecialFunctions.Artanh
import Mathlib.Analysis.SpecialFunctions.Pow.Real
import Mathlib.Analysis.SpecialFunctions.Trigonometric.Arctan
import Mathlib.Data.Real.Sign

/-!
# Exact numbers

The real numbers as the scalars that equations are evaluated over: arithmetic is exact, every number
is finite and defined, and the elementary functions are those of analysis.

The tests by which a derivative drops a term become inequalities (`negligible_iff`, `nearOne_iff`),
and both ways of computing a power, by repeated squaring and in general, give the same number
(`powLiteral_eq`).
-/

set_option autoImplicit false

namespace ErrorBudget

/-- Exact numbers. None of them is infinite or undefined, so `infinity` and `nan` stand for no
number; a statement about exact numbers leaves the constants with these values out. -/
noncomputable instance : Scalar ℝ where
  decidableLT := inferInstance
  decidableLE := inferInstance
  ofDecimal m e := m * 10 ^ e
  integer? x := if (⌊x⌋ : ℝ) = x then some ⌊x⌋ else none
  isNaN _ := false
  isFinite _ := true
  infinity := 0
  nan := 0
  pi := Real.pi
  abs x := |x|
  sqrt := Real.sqrt
  exp := Real.exp
  log := Real.log
  sin := Real.sin
  cos := Real.cos
  tan := Real.tan
  asin := Real.arcsin
  acos := Real.arccos
  atan := Real.arctan
  sinh := Real.sinh
  cosh := Real.cosh
  tanh := Real.tanh
  asinh := Real.arsinh
  acosh := Real.arcosh
  atanh := Real.artanh
  pow x y := x ^ y

namespace Scalar

/-- The largest magnitude of a literal that is dropped as a term, as an exact number. -/
theorem tolerance_eq : (tolerance : ℝ) = 1e-10 := by
  norm_num [tolerance, ofDecimal]

/-- Negligible is what is closer to zero than the tolerance. -/
theorem negligible_iff (x : ℝ) : negligible x = true ↔ |x| < 1e-10 := by
  rw [negligible, decide_eq_true_iff, tolerance_eq]
  rfl

/-- Near one is what is closer to one than the tolerance. -/
theorem nearOne_iff (x : ℝ) : nearOne x = true ↔ |x - 1| < 1e-10 := by
  rw [nearOne, decide_eq_true_iff, tolerance_eq]
  rfl

/-- The sine of an exact number. -/
@[simp] theorem sin_eq (x : ℝ) : sin x = Real.sin x := rfl

/-- The cosine of an exact number. -/
@[simp] theorem cos_eq (x : ℝ) : cos x = Real.cos x := rfl

/-- The tangent of an exact number. -/
@[simp] theorem tan_eq (x : ℝ) : tan x = Real.tan x := rfl

/-- The hyperbolic sine of an exact number. -/
@[simp] theorem sinh_eq (x : ℝ) : sinh x = Real.sinh x := rfl

/-- The hyperbolic cosine of an exact number. -/
@[simp] theorem cosh_eq (x : ℝ) : cosh x = Real.cosh x := rfl

/-- The hyperbolic tangent of an exact number. -/
@[simp] theorem tanh_eq (x : ℝ) : tanh x = Real.tanh x := rfl

/-- The exponential of an exact number. -/
@[simp] theorem exp_eq (x : ℝ) : exp x = Real.exp x := rfl

/-- The logarithm of an exact number. -/
@[simp] theorem log_eq (x : ℝ) : log x = Real.log x := rfl

/-- The root of an exact number. -/
@[simp] theorem sqrt_eq (x : ℝ) : sqrt x = √x := rfl

/-- The literal two is exact. -/
@[simp] theorem two_eq : (two : ℝ) = 2 := one_add_one_eq_two

/-- The sign of an exact number. -/
@[simp] theorem sign_eq (x : ℝ) : sign x = Real.sign x := by
  rcases lt_trichotomy x 0 with h | rfl | h
  · simp [sign, Real.sign, h, h.ne, h.not_gt]
  · simp [sign]
  · simp [sign, Real.sign, h, h.ne', h.not_gt]

/-- Repeated squaring computes a power: the binary digits of the exponent that are still to come
belong to the square of the base. -/
theorem mulPow_eq (r x : ℝ) (n : ℕ) : mulPow r x n = r * x ^ n := by
  induction n using Nat.strong_induction_on generalizing r x with
  | _ n ih =>
    have hn := Nat.div_add_mod n 2
    have hx : x ^ n = (x * x) ^ (n / 2) * x ^ (n % 2) := by
      rw [← pow_two, ← pow_mul, ← pow_add, hn]
    have hr : (if n % 2 = 1 then r * x else r) = r * x ^ (n % 2) := by
      split_ifs with h
      · simp [h]
      · simp [Nat.mod_two_ne_one.mp h]
    rw [mulPow]
    simp only [hr]
    split_ifs with hlast
    · rw [hx, hlast]
      simp
    · rw [ih (n / 2) (by omega), hx]
      ring

/-- Repeated squaring gives the power, also for a negative exponent. -/
theorem powInt_eq (x : ℝ) (k : ℤ) : powInt x k = x ^ k := by
  have hpow : mulPow 1 x k.natAbs = x ^ k.natAbs := (mulPow_eq 1 x _).trans (one_mul _)
  rw [powInt]
  split_ifs with hk
  · rw [hpow]
    obtain ⟨n, rfl⟩ := Int.exists_eq_neg_ofNat hk.le
    simp
  · rw [hpow]
    obtain ⟨n, rfl⟩ := Int.eq_ofNat_of_zero_le (not_lt.mp hk)
    simp

/-- A power does not depend on whether its exponent is applied by squaring. -/
theorem powLiteral_eq (x y : ℝ) : powLiteral x y = x ^ y := by
  unfold powLiteral
  split
  · rename_i k hk
    have hy : (k : ℝ) = y := by
      simp only [integer?] at hk
      split_ifs at hk with h
      · simpa [Option.some.inj hk] using h
    split_ifs
    · rw [powInt_eq, ← hy, Real.rpow_intCast]
    · rfl
  · rfl

end Scalar

end ErrorBudget
