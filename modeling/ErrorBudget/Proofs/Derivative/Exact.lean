import ErrorBudget.Proofs.Derivative.Leaves
import ErrorBudget.Proofs.Exact.Func

/-!
# Derivatives over exact numbers

The derivative that is built by rules has the value that analysis gives it
(`hasDerivAt_denote`, `evaluate_derive`), at every point where the textbook rules apply
(`IsRegular`). The rules drop a literal close to zero or one as if it were zero or one, so the
literals must not come close to these numbers without being equal to them (`IsSeparated`).

Each constructor that drops something has the value of the operation it stands for, when a literal
at the root of its arguments is separated (`denote_sum` to `denote_exponentRule`); the induction
over the expression then only has to name the rule of analysis.
-/

set_option autoImplicit false

namespace ErrorBudget

open Topology

namespace Expr

section Separation

/-- A literal that is neither dropped as zero nor as one unless it is that number, nor is its
negative. -/
def IsSeparated (c : ℝ) : Prop :=
  c = 0 ∨ c = 1 ∨ c = -1 ∨ (1e-10 ≤ |c| ∧ 1e-10 ≤ |(|c| - 1)|)

/-- The separated literals contain zero and one and the negatives of their members. -/
theorem isLiteralClass_isSeparated : IsLiteralClass IsSeparated where
  zero := .inl rfl
  one := .inr (.inl rfl)
  neg {c} hc := by
    unfold IsSeparated at hc ⊢
    rw [abs_neg]
    rcases hc with rfl | rfl | rfl | hc
    · exact .inl neg_zero
    · exact .inr (.inr (.inl rfl))
    · exact .inr (.inl (neg_neg 1))
    · exact .inr (.inr (.inr hc))

/-- A separated number that counts as zero is zero. -/
theorem IsSeparated.eq_zero {c : ℝ} (hc : IsSeparated c) (h : Scalar.negligible c = true) :
    c = 0 := by
  rw [Scalar.negligible_iff] at h
  rcases hc with rfl | rfl | rfl | hc
  · rfl
  · norm_num at h
  · norm_num at h
  · exact absurd hc.1 h.not_ge

/-- A separated number that counts as one is one. -/
theorem IsSeparated.eq_one {c : ℝ} (hc : IsSeparated c) (h : Scalar.nearOne c = true) :
    c = 1 := by
  rw [Scalar.nearOne_iff] at h
  rcases hc with rfl | rfl | rfl | hc
  · norm_num at h
  · rfl
  · norm_num at h
  · rcases le_or_gt 0 c with hsign | hsign
    · rw [abs_of_nonneg hsign] at hc
      exact absurd hc.2 h.not_ge
    · have : 1 < |c - 1| := by
        rw [abs_of_neg (by linarith)]
        linarith
      norm_num at h
      linarith

end Separation

section Rules

variable {p : Point ℝ} {u v u' v' : Expr ℝ}

/-- What is dropped as a term has the value zero, if literals are separated. -/
theorem denote_of_isNegligible (hu : u.RootIn IsSeparated) (h : u.isNegligible = true) :
    u.denote p = 0 := by
  cases u with
  | number c => exact hu.eq_zero h
  | _ => simp [isNegligible] at h

/-- What is dropped as a factor has the value one, if literals are separated. -/
theorem denote_of_isNearOne (hu : u.RootIn IsSeparated) (h : u.isNearOne = true) :
    u.denote p = 1 := by
  cases u with
  | number c => exact hu.eq_one h
  | _ => simp [isNearOne] at h

/-- A literal has its number as value. -/
theorem denote_of_isLiteral {c : ℝ} (h : u.isLiteral c = true) : u.denote p = c := by
  cases u with
  | number y => simpa [isLiteral] using h
  | _ => simp [isLiteral] at h

/-- The value of a power, with a literal exponent or any other. -/
@[simp] theorem denote_pow : (pow u v).denote p = u.denote p ^ v.denote p := by
  cases v with
  | number n => exact Scalar.powLiteral_eq _ _
  | _ => rfl

/-- The literal zero has the value zero. -/
@[simp] theorem denote_zero : (zero : Expr ℝ).denote p = 0 := rfl

/-- The literal one has the value one. -/
@[simp] theorem denote_one : (one : Expr ℝ).denote p = 1 := rfl

/-- The negative of an expression has the negative value. -/
@[simp] theorem denote_negate : (negate u).denote p = -u.denote p := by
  cases u with
  | number c => rfl
  | _ => simp [negate]

/-- The square of an expression has the squared value. -/
@[simp] theorem denote_square : (square u).denote p = u.denote p ^ 2 := by
  simp [square]

/-- A sum with a dropped term still has the value of the sum. -/
theorem denote_sum (hu : u.RootIn IsSeparated) (hv : v.RootIn IsSeparated) :
    (sum u v).denote p = u.denote p + v.denote p := by
  unfold sum
  split_ifs with h h'
  · rw [denote_of_isNegligible hu h, zero_add]
  · rw [denote_of_isNegligible hv h', add_zero]
  · rfl

/-- A difference with a dropped term still has the value of the difference. -/
theorem denote_difference (hu : u.RootIn IsSeparated) (hv : v.RootIn IsSeparated) :
    (difference u v).denote p = u.denote p - v.denote p := by
  unfold difference
  split_ifs with h h'
  · rw [denote_of_isNegligible hv h, sub_zero]
  · rw [denote_negate, denote_of_isNegligible hu h', zero_sub]
  · rfl

/-- A product with a dropped factor still has the value of the product. -/
theorem denote_product (hu : u.RootIn IsSeparated) (hv : v.RootIn IsSeparated) :
    (product u v).denote p = u.denote p * v.denote p := by
  unfold product
  split_ifs with h hone hone'
  · rcases Bool.or_eq_true_iff.mp h with h | h
    · rw [denote_of_isNegligible hu h, zero_mul, denote_zero]
    · rw [denote_of_isNegligible hv h, mul_zero, denote_zero]
  · rw [denote_of_isNearOne hu hone, one_mul]
  · rw [denote_of_isNearOne hv hone', mul_one]
  · rfl

/-- A scaled product has the value of the product, whatever the literals are. -/
@[simp] theorem denote_scaled : (scaled u v).denote p = u.denote p * v.denote p := by
  unfold scaled
  split_ifs with h hone hone'
  · rcases Bool.or_eq_true_iff.mp h with h | h
    · rw [denote_of_isLiteral h, zero_mul, denote_zero]
    · rw [denote_of_isLiteral h, mul_zero, denote_zero]
  · rw [denote_of_isLiteral hone, one_mul]
  · rw [denote_of_isLiteral hone', mul_one]
  · rfl

/-- A quotient with a dropped numerator still has the value of the quotient. -/
theorem denote_quotient (hu : u.RootIn IsSeparated) :
    (quotient u v).denote p = u.denote p / v.denote p := by
  unfold quotient
  split_ifs with h
  · rw [denote_of_isNegligible hu h, zero_div, denote_zero]
  · rfl

/-- The chain rule multiplies by the derivative of the function. -/
theorem denote_chain (f : Func) (hu' : u'.RootIn IsSeparated) :
    (chain f u u').denote p = f.slope (u.denote p) * u'.denote p := by
  have hnegate := hu'.negate isLiteralClass_isSeparated
  cases f with
  | sec | csc =>
    simp only [chain, denote_scaled, denote_negate, denote_mul, denote_call, Func.apply, Func.slope,
      Scalar.sin_eq, Scalar.cos_eq, Scalar.tan_eq, Real.tan_eq_sin_div_cos,
      one_div_div]
    ring
  | asin | atan | acosh | atanh | log | ln | sqrt =>
    rw [chain, denote_quotient hu']
    simp [Func.apply, Func.slope, div_eq_inv_mul]
  | acos =>
    rw [chain, denote_quotient hnegate]
    simp [Func.apply, Func.slope, div_eq_inv_mul]
  | asinh =>
    rw [chain, denote_quotient hu']
    simp [Func.apply, Func.slope, div_eq_inv_mul, add_comm]
  | _ => simp [chain, Func.apply, Func.slope]

/-- The quotient rule of analysis. -/
theorem denote_quotientRule (hu : u.RootIn IsSeparated) (hv : v.RootIn IsSeparated)
    (hu' : u'.RootIn IsSeparated) (hv' : v'.RootIn IsSeparated) (hne : v.denote p ≠ 0) :
    (quotientRule u v u' v').denote p =
      (u'.denote p * v.denote p - u.denote p * v'.denote p) / v.denote p ^ 2 := by
  unfold quotientRule
  split_ifs with h hzero hone
  · rw [denote_of_isNegligible hv' h, denote_of_isNegligible hu' hzero]
    simp
  · rw [denote_of_isNegligible hv' h, denote_of_isNearOne hv hone]
    simp
  · rw [denote_of_isNegligible hv' h]
    rw [denote_div]
    field_simp
    simp
  · simp only [denote_div, denote_square, ← denote_product hu' hv, ← denote_product hu hv']
    congr 1
    split_ifs with hleft
    · rw [denote_of_isNegligible (hu'.product isLiteralClass_isSeparated hv) hleft, denote_negate,
        zero_sub]
    · rfl

/-- Lowering the exponent by one. -/
theorem denote_lowered : (lowered u v).denote p = u.denote p ^ (v.denote p - 1) := by
  cases v with
  | number n =>
    rw [lowered]
    split_ifs with h
    · obtain rfl : n = 2 := by simpa using h
      norm_num
    · simp
  | _ => simp [lowered]

/-- The power rule of analysis. -/
theorem denote_powerRule (hu : u.RootIn IsSeparated) (hv : v.RootIn IsSeparated)
    (hu' : u'.RootIn IsSeparated) :
    (powerRule u v u').denote p =
      v.denote p * u.denote p ^ (v.denote p - 1) * u'.denote p := by
  have hlowered := (hu.lowered (v := v)).product isLiteralClass_isSeparated hu'
  unfold powerRule
  split_ifs with h hzero hone
  · rw [denote_of_isNegligible hu' h, mul_zero, denote_zero]
  · rw [denote_of_isLiteral hzero, zero_mul, zero_mul, denote_zero]
  · rw [denote_of_isLiteral hone]
    simp
  · rw [denote_product hv hlowered, denote_product hu.lowered hu', denote_lowered, mul_assoc]

/-- The rule for an exponent that varies. -/
theorem denote_exponentRule (hv : v.RootIn IsSeparated) (hu' : u'.RootIn IsSeparated)
    (hv' : v'.RootIn IsSeparated) :
    (exponentRule u v u' v').denote p = u.denote p ^ v.denote p *
      (v'.denote p * Real.log (u.denote p) + v.denote p * (u'.denote p / u.denote p)) := by
  have hlog : (call .log u).RootIn IsSeparated := trivial
  have hquotient : (div u' u).RootIn IsSeparated := trivial
  have hleft := hv'.product isLiteralClass_isSeparated hlog
  have hright : (if u'.isNegligible then zero else product v (div u' u)).RootIn IsSeparated := by
    split_ifs
    · exact isLiteralClass_isSeparated.zero
    · exact hv.product isLiteralClass_isSeparated hquotient
  have hpow : (pow u v).RootIn IsSeparated := trivial
  rw [exponentRule, denote_product hpow (hleft.sum hright), denote_pow, denote_sum hleft hright,
    denote_product hv' hlog]
  congr 2
  split_ifs with h
  · rw [denote_of_isNegligible hu' h, zero_div, mul_zero, denote_zero]
  · rw [denote_product hv hquotient, denote_div]

end Rules

section Analysis

variable {p : Point ℝ} {x : String} {a : ℝ}

/-- The textbook rules of differentiation apply to an expression at a point: all leaves are real
numbers, no denominator vanishes, the arguments of functions are inside their domains, and a base
is positive unless its exponent is an integer literal, which must not be negative if the base is
zero. -/
def IsRegular (p : Point ℝ) : Expr ℝ → Prop
  | number _ => True
  | symbol name => name ∈ p
  | constant c => c.isReal = true ∧ c ≠ .infinity ∧ c ≠ .nan
  | call f u => u.IsRegular p ∧ f.Domain (u.denote p)
  | add u v | sub u v | mul u v => u.IsRegular p ∧ v.IsRegular p
  | div u v => u.IsRegular p ∧ v.IsRegular p ∧ v.denote p ≠ 0
  | pow u v => u.IsRegular p ∧ v.IsRegular p ∧
      (0 < u.denote p ∨ ∃ k : ℤ, v = number (k : ℝ) ∧ (0 ≤ k ∨ u.denote p ≠ 0))

/-- The leaves of a regular expression resolve. -/
theorem IsRegular.resolves {e : Expr ℝ} (h : e.IsRegular p) : e.Resolves p := by
  induction e with
  | number c => trivial
  | symbol name => exact h
  | constant c => exact h.1
  | call f u ih => exact ih h.1
  | add u v ihu ihv | sub u v ihu ihv | mul u v ihu ihv => exact ⟨ihu h.1, ihv h.2⟩
  | div u v ihu ihv | pow u v ihu ihv => exact ⟨ihu h.1, ihv h.2.1⟩

/-- An expression without a variable does not change with it. -/
theorem denote_insert_of_not_contains {e : Expr ℝ} (h : e.contains x = false) (t : ℝ) :
    e.denote (p.insert x t) = e.denote (p.insert x a) := by
  apply denote_congr
  intro y hy
  have hne : x ≠ y := by
    rintro rfl
    exact absurd hy (by simp [h])
  simp [Std.ExtTreeMap.getD_insert, hne]

/-- A power with a fixed exponent, at a base that is not zero, or any base under an exponent that is
zero or at least one. -/
theorem hasDerivAt_pow_fixed {u : ℝ → ℝ} {u' r : ℝ} (hu : HasDerivAt u u' a)
    (h : u a ≠ 0 ∨ 1 ≤ r ∨ r = 0) : HasDerivAt (fun t => u t ^ r) (r * u a ^ (r - 1) * u') a := by
  rw [← or_assoc] at h
  rcases h with h | rfl
  · exact (hu.rpow_const h).congr_deriv (by ring)
  · simpa using hasDerivAt_const a (1 : ℝ)

/-- An integer that is not negative is zero or at least one. -/
theorem one_le_or_eq_zero {k : ℤ} (hk : 0 ≤ k) : (1 : ℝ) ≤ k ∨ (k : ℝ) = 0 := by
  rcases hk.eq_or_lt with rfl | hk
  · exact .inr Int.cast_zero
  · exact .inl (Int.cast_one_le_of_pos hk)

/-- The derivative of an expression has the value that analysis gives it. -/
theorem hasDerivAt_denote {e : Expr ℝ} (hliterals : e.LiteralsIn IsSeparated)
    (h : e.IsRegular (p.insert x a)) :
    HasDerivAt (fun t => e.denote (p.insert x t)) ((e.derive x).denote (p.insert x a)) a := by
  have hroot {u : Expr ℝ} (hu : u.LiteralsIn IsSeparated) : (u.derive x).RootIn IsSeparated :=
    rootIn_derive isLiteralClass_isSeparated hu x
  induction e with
  | number c | constant c => exact hasDerivAt_const a _
  | symbol name =>
    unfold derive
    split_ifs with hname
    · obtain rfl : name = x := by simpa using hname
      simpa using hasDerivAt_id' a
    · have hne : x ≠ name := fun h => hname (by simp [h])
      simpa [Std.ExtTreeMap.getD_insert, hne] using hasDerivAt_const a (p.getD name 0)
  | call f u ih =>
    unfold derive
    split_ifs with hx
    · rw [denote_chain f (hroot (u := u) hliterals)]
      exact (f.hasDerivAt h.2).comp a (ih hliterals h.1)
    · have hfixed := denote_insert_of_not_contains (p := p) (a := a) (Bool.eq_false_iff.mpr hx)
      simp only [denote_call, hfixed, denote_zero]
      exact hasDerivAt_const a _
  | add u v ihu ihv =>
    rw [derive, denote_sum (hroot hliterals.1) (hroot hliterals.2)]
    exact (ihu hliterals.1 h.1).add (ihv hliterals.2 h.2)
  | sub u v ihu ihv =>
    rw [derive, denote_difference (hroot hliterals.1) (hroot hliterals.2)]
    exact (ihu hliterals.1 h.1).sub (ihv hliterals.2 h.2)
  | mul u v ihu ihv =>
    have hleft := (hroot hliterals.1).product isLiteralClass_isSeparated hliterals.2.rootIn
    have hright := hliterals.1.rootIn.product isLiteralClass_isSeparated (hroot hliterals.2)
    rw [derive, denote_sum hleft hright, denote_product (hroot hliterals.1) hliterals.2.rootIn,
      denote_product hliterals.1.rootIn (hroot hliterals.2)]
    exact (ihu hliterals.1 h.1).mul (ihv hliterals.2 h.2)
  | div u v ihu ihv =>
    rw [derive, denote_quotientRule hliterals.1.rootIn hliterals.2.rootIn (hroot hliterals.1)
      (hroot hliterals.2) h.2.2]
    exact (ihu hliterals.1 h.1).div (ihv hliterals.2 h.2.1) h.2.2
  | pow u v ihu ihv =>
    obtain ⟨hu, hv, hbase⟩ := h
    have hdu := ihu hliterals.1 hu
    unfold derive
    split_ifs with hx
    · -- The exponent varies, so it is no literal, and the base is positive.
      have hpos : 0 < u.denote (p.insert x a) := by
        rcases hbase with hpos | ⟨k, rfl, -⟩
        · exact hpos
        · simp [contains] at hx
      rw [denote_exponentRule hliterals.2.rootIn (hroot hliterals.1) (hroot hliterals.2)]
      simp only [denote_pow]
      refine (hdu.rpow (ihv hliterals.2 hv) hpos).congr_deriv ?_
      rw [Real.rpow_sub_one hpos.ne']
      ring
    · rw [denote_powerRule hliterals.1.rootIn hliterals.2.rootIn (hroot hliterals.1)]
      have hfixed := denote_insert_of_not_contains (p := p) (a := a) (Bool.eq_false_iff.mpr hx)
      simp only [denote_pow, hfixed]
      refine hasDerivAt_pow_fixed hdu ?_
      rcases hbase with hpos | ⟨k, rfl, hk | hne⟩
      · exact .inl hpos.ne'
      · exact .inr (one_le_or_eq_zero hk)
      · exact .inl hne

/-- Where the textbook rules apply, they still apply when the variable changes a little. So the
value near such a point is that of analysis, and never one that a division by zero is given. -/
theorem IsRegular.eventually {e : Expr ℝ} (hliterals : e.LiteralsIn IsSeparated)
    (h : e.IsRegular (p.insert x a)) : ∀ᶠ t in 𝓝 a, e.IsRegular (p.insert x t) := by
  have hcontinuous {u : Expr ℝ} (hu : u.LiteralsIn IsSeparated) (hregular : u.IsRegular _) :
      ContinuousAt (fun t => u.denote (p.insert x t)) a :=
    (hasDerivAt_denote hu hregular).continuousAt
  induction e with
  | number c => exact .of_forall fun _ => trivial
  | constant c => exact .of_forall fun _ => h
  | symbol name => exact .of_forall fun t => Resolves.insert (e := symbol name) h t
  | call f u ih =>
    have hdomain := (hcontinuous (u := u) hliterals h.1).eventually (f.isOpen_domain.mem_nhds h.2)
    exact (ih hliterals h.1).and hdomain
  | add u v ihu ihv | sub u v ihu ihv | mul u v ihu ihv =>
    exact (ihu hliterals.1 h.1).and (ihv hliterals.2 h.2)
  | div u v ihu ihv =>
    have hne := (hcontinuous hliterals.2 h.2.1).eventually_ne h.2.2
    exact (ihu hliterals.1 h.1).and ((ihv hliterals.2 h.2.1).and hne)
  | pow u v ihu ihv =>
    obtain ⟨hu, hv, hbase⟩ := h
    refine (ihu hliterals.1 hu).and ((ihv hliterals.2 hv).and ?_)
    rcases hbase with hpos | ⟨k, hk, hle | hne⟩
    · exact ((hcontinuous hliterals.1 hu).eventually (lt_mem_nhds hpos)).mono fun _ => .inl
    · exact .of_forall fun _ => .inr ⟨k, hk, .inl hle⟩
    · have hnear := (hcontinuous hliterals.1 hu).eventually_ne hne
      exact hnear.mono fun _ hne => .inr ⟨k, hk, .inr hne⟩

/-- Symbolic derivatives are exact: where the textbook rules apply to an expression with separated
literals, they apply nearby as well, and the derivative evaluates to the partial derivative of the
value. -/
theorem evaluate_derive {e : Expr ℝ} (hliterals : e.LiteralsIn IsSeparated)
    (h : e.IsRegular (p.insert x a)) :
    ∃ (f : ℝ → ℝ) (d : ℝ), (∀ᶠ t in 𝓝 a, e.IsRegular (p.insert x t)) ∧
      (∀ t, e.evaluate (p.insert x t) = .ok (f t)) ∧
      (e.derive x).evaluate (p.insert x a) = .ok d ∧ HasDerivAt f d a := by
  have hvalue (t : ℝ) : e.evaluate (p.insert x t) = .ok (e.denote (p.insert x t)) :=
    evaluate_eq_ok_iff.mpr ⟨h.resolves.insert t, rfl, rfl⟩
  have hslope : (e.derive x).evaluate (p.insert x a) = .ok ((e.derive x).denote (p.insert x a)) :=
    evaluate_eq_ok_iff.mpr ⟨h.resolves.derive x, rfl, rfl⟩
  exact ⟨_, _, h.eventually hliterals, hvalue, hslope, hasDerivAt_denote hliterals h⟩

/-- The expression `log(x) * x ** -1`. -/
noncomputable def logQuotient : Expr ℝ :=
  mul (call .log (symbol "x")) (pow (symbol "x") (number (-1)))

/-- The derivative of `log(x) * x ** -1` at 2. -/
theorem evaluate_derive_logQuotient :
    ∃ (f : ℝ → ℝ) (d : ℝ),
      (∀ᶠ t in 𝓝 2, logQuotient.IsRegular ((∅ : Point ℝ).insert "x" t)) ∧
      (∀ t, logQuotient.evaluate ((∅ : Point ℝ).insert "x" t) = .ok (f t)) ∧
      (logQuotient.derive "x").evaluate ((∅ : Point ℝ).insert "x" 2) = .ok d ∧
      HasDerivAt f d 2 := by
  have hliteral : IsSeparated (-1) := .inr (.inr (.inl rfl))
  have hx : "x" ∈ (∅ : Point ℝ).insert "x" 2 := Std.ExtTreeMap.mem_insert_self
  have hpos : 0 < (symbol "x").denote ((∅ : Point ℝ).insert "x" 2) := by simp
  exact evaluate_derive ⟨trivial, trivial, hliteral⟩ ⟨⟨hx, hpos⟩, hx, trivial, .inl hpos⟩

end Analysis

end Expr

end ErrorBudget
