import ErrorBudget.Func
import ErrorBudget.Proofs.Exact.Scalar
import Mathlib.Analysis.Calculus.Deriv.Abs
import Mathlib.Analysis.SpecialFunctions.Pow.Deriv
import Mathlib.Analysis.SpecialFunctions.Sqrt
import Mathlib.Analysis.SpecialFunctions.Trigonometric.ArctanDeriv
import Mathlib.Analysis.SpecialFunctions.Trigonometric.InverseDeriv

/-!
# Calculus of the built-in functions

Every function of the grammar has a domain on which it is differentiable (`Func.Domain`) and a
derivative there (`Func.slope`), as found in a textbook (`Func.hasDerivAt`). At the border of a
domain, and outside of it, nothing is said.
-/

set_option autoImplicit false

namespace ErrorBudget

namespace Func

/-- Where a function is differentiable. -/
def Domain : Func → ℝ → Prop
  | tan, x | sec, x => Real.cos x ≠ 0
  | cot, x | csc, x => Real.sin x ≠ 0
  | asin, x | acos, x | atanh, x => -1 < x ∧ x < 1
  | acosh, x => 1 < x
  | log, x | ln, x | sqrt, x => 0 < x
  | abs, x | sign, x => x ≠ 0
  | _, _ => True

/-- The derivative of a function. -/
noncomputable def slope : Func → ℝ → ℝ
  | sin, x => Real.cos x
  | cos, x => -Real.sin x
  | tan, x => 1 / Real.cos x ^ 2
  | cot, x => -(1 / Real.sin x ^ 2)
  | sec, x => Real.sin x / Real.cos x ^ 2
  | csc, x => -(Real.cos x / Real.sin x ^ 2)
  | asin, x => 1 / √(1 - x ^ 2)
  | acos, x => -(1 / √(1 - x ^ 2))
  | atan, x => 1 / (1 + x ^ 2)
  | sinh, x => Real.cosh x
  | cosh, x => Real.sinh x
  | tanh, x => 1 - Real.tanh x ^ 2
  | asinh, x => 1 / √(1 + x ^ 2)
  | acosh, x => 1 / √(x ^ 2 - 1)
  | atanh, x => 1 / (1 - x ^ 2)
  | exp, x => Real.exp x
  | log, x | ln, x => 1 / x
  | sqrt, x => 1 / (2 * √x)
  | abs, x => Real.sign x
  | sign, _ => 0

/-- Numbers close to one in a domain are in the domain. -/
theorem isOpen_domain (f : Func) : IsOpen {x | f.Domain x} := by
  cases f with
  | tan | sec => exact isOpen_ne_fun Real.continuous_cos continuous_const
  | cot | csc => exact isOpen_ne_fun Real.continuous_sin continuous_const
  | asin | acos | atanh => exact isOpen_Ioo
  | acosh | log | ln | sqrt => exact isOpen_Ioi
  | abs | sign => exact isOpen_ne
  | _ => exact isOpen_univ

/-- The derivative of the hyperbolic tangent, a quotient. -/
theorem hasDerivAt_tanh (x : ℝ) : HasDerivAt Real.tanh (1 - Real.tanh x ^ 2) x := by
  have hcosh : Real.cosh x ≠ 0 := (Real.cosh_pos x).ne'
  have hquotient := (Real.hasDerivAt_sinh x).div (Real.hasDerivAt_cosh x) hcosh
  rw [show Real.tanh = Real.sinh / Real.cosh from funext Real.tanh_eq_sinh_div_cosh]
  refine hquotient.congr_deriv ?_
  rw [Pi.div_apply]
  field_simp

/-- The derivative of the inverse hyperbolic tangent, half a difference of logarithms. -/
theorem hasDerivAt_artanh {x : ℝ} (hx : -1 < x ∧ x < 1) :
    HasDerivAt Real.artanh (1 / (1 - x ^ 2)) x := by
  have hplus : 1 + x ≠ 0 := by linarith
  have hminus : 1 - x ≠ 0 := by linarith
  have hdiff := ((((hasDerivAt_id x).const_add 1).log hplus).sub
    (((hasDerivAt_id x).const_sub 1).log hminus)).const_mul (1 / 2)
  refine (hdiff.congr_deriv ?_).congr_of_eventuallyEq ?_
  · have : 1 - x ^ 2 = (1 + x) * (1 - x) := by ring
    simp only [id_eq]
    rw [this]
    field_simp
    ring
  · filter_upwards [Ioo_mem_nhds hx.1 hx.2] with y hy
    have hy₁ : 1 + y ≠ 0 := by linarith [hy.1]
    have hy₂ : 1 - y ≠ 0 := by linarith [hy.2]
    rw [Real.artanh_eq_half_log ⟨hy.1.le, hy.2.le⟩, Real.log_div hy₁ hy₂]
    rfl

/-- The absolute value has the sign as its derivative, except at zero. -/
theorem hasDerivAt_abs {x : ℝ} (hx : x ≠ 0) : HasDerivAt (fun y => |y|) (Real.sign x) x := by
  rcases hx.lt_or_gt with h | h
  · rw [Real.sign_of_neg h]
    exact hasDerivAt_abs_neg h
  · rw [Real.sign_of_pos h]
    exact hasDerivAt_abs_pos h

/-- The sign does not change near a number that is not zero. -/
theorem hasDerivAt_sign {x : ℝ} (hx : x ≠ 0) : HasDerivAt Real.sign 0 x := by
  refine (hasDerivAt_const x (Real.sign x)).congr_of_eventuallyEq ?_
  rcases hx.lt_or_gt with h | h
  · filter_upwards [Iio_mem_nhds h] with y hy
    rw [Real.sign_of_neg h, Real.sign_of_neg hy]
  · filter_upwards [Ioi_mem_nhds h] with y hy
    rw [Real.sign_of_pos h, Real.sign_of_pos hy]

/-- The cotangent is a quotient, also where the tangent has a pole. -/
theorem hasDerivAt_cot {x : ℝ} (hx : Real.sin x ≠ 0) :
    HasDerivAt (fun y => 1 / Real.tan y) (-(1 / Real.sin x ^ 2)) x := by
  have hcot : (fun y => 1 / Real.tan y) = Real.cos / Real.sin := by
    ext y
    rw [Real.tan_eq_sin_div_cos, one_div_div, Pi.div_apply]
  rw [hcot]
  refine ((Real.hasDerivAt_cos x).div (Real.hasDerivAt_sin x) hx).congr_deriv ?_
  rw [← neg_div]
  congr 1
  linear_combination -Real.sin_sq_add_cos_sq x

/-- Every function of the grammar has its derivative throughout its domain. -/
theorem hasDerivAt (f : Func) {x : ℝ} (hx : f.Domain x) : HasDerivAt f.apply (f.slope x) x := by
  cases f with
  | sin => exact Real.hasDerivAt_sin x
  | cos => exact Real.hasDerivAt_cos x
  | tan => exact Real.hasDerivAt_tan hx
  | cot => exact hasDerivAt_cot hx
  | sec =>
    refine ((hasDerivAt_const x 1).div (Real.hasDerivAt_cos x) hx).congr_deriv ?_
    simp [slope]
  | csc =>
    refine ((hasDerivAt_const x 1).div (Real.hasDerivAt_sin x) hx).congr_deriv ?_
    simp [slope, neg_div]
  | asin => exact Real.hasDerivAt_arcsin hx.1.ne' hx.2.ne
  | acos => exact Real.hasDerivAt_arccos hx.1.ne' hx.2.ne
  | atan => exact Real.hasDerivAt_arctan x
  | sinh => exact Real.hasDerivAt_sinh x
  | cosh => exact Real.hasDerivAt_cosh x
  | tanh => exact hasDerivAt_tanh x
  | asinh => exact (Real.hasDerivAt_arsinh x).congr_deriv (one_div _).symm
  | acosh => exact (Real.hasDerivAt_arcosh hx).congr_deriv (one_div _).symm
  | atanh => exact hasDerivAt_artanh hx
  | exp => exact Real.hasDerivAt_exp x
  | log | ln => exact (Real.hasDerivAt_log hx.ne').congr_deriv (one_div _).symm
  | sqrt => exact Real.hasDerivAt_sqrt hx.ne'
  | abs => exact hasDerivAt_abs hx
  | sign =>
    have hsign : (sign.apply : ℝ → ℝ) = Real.sign := funext Scalar.sign_eq
    rw [hsign]
    exact hasDerivAt_sign hx

end Func

end ErrorBudget
