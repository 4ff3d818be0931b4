import ErrorBudget.Proofs.Derivative.Exact
import ErrorBudget.Proofs.Parser.Grammar

/-!
# Dependence that a derivative loses

A derivative that comes out as a negligible literal claims that the expression does not depend on
the variable. For an expression without `sign` this is right as long as no literal of the expression
is itself negligible without being zero (`isFixed_of_isNegligible`). A smaller literal is dropped as
if it were zero: `c * x` is then taken to be fixed, whatever the unit that makes `c` small. So the
class of literals that loses no dependence is known exactly (`dependence_kept_iff`).
-/

set_option autoImplicit false

namespace ErrorBudget

namespace Expr

/-- An expression that does not call `sign`, which has the derivative zero on both sides of its
jump. -/
def IsSignFree {α : Type} : Expr α → Prop
  | number _ | symbol _ | constant _ => True
  | call f u => f ≠ .sign ∧ u.IsSignFree
  | add u v | sub u v | mul u v | div u v | pow u v => u.IsSignFree ∧ v.IsSignFree

/-- The value of an expression is the same at any two points that differ only in `x`. -/
def IsFixed (x : String) (e : Expr ℝ) : Prop :=
  ∀ (p : Point ℝ) (a b : ℝ), e.denote (p.insert x a) = e.denote (p.insert x b)

/-- A literal that is dropped only if it is zero. -/
def IsNoticed (c : ℝ) : Prop := c = 0 ∨ 1e-10 ≤ |c|

section Negligible

variable {u v u' v' : Expr ℝ}

/-- The literal zero is negligible. -/
theorem isNegligible_zero : (zero : Expr ℝ).isNegligible = true := by
  norm_num [zero, isNegligible, Scalar.negligible_iff]

/-- The literal one is not negligible. -/
theorem not_isNegligible_one : ¬(one : Expr ℝ).isNegligible = true := by
  norm_num [one, isNegligible, Scalar.negligible_iff]

/-- Only a negligible expression has a negligible negative. -/
theorem isNegligible_negate (h : (negate u).isNegligible = true) : u.isNegligible = true := by
  cases u with
  | number c => simpa [negate, isNegligible, Scalar.negligible_iff] using h
  | _ => simp [negate, isNegligible] at h

/-- A sum is negligible only if both terms are. -/
theorem isNegligible_sum (h : (sum u v).isNegligible = true) :
    u.isNegligible = true ∧ v.isNegligible = true := by
  unfold sum at h
  split_ifs at h with hu hv
  · exact ⟨hu, h⟩
  · exact absurd h hu
  · simp [isNegligible] at h

/-- A difference is negligible only if both of its terms are. -/
theorem isNegligible_difference (h : (difference u v).isNegligible = true) :
    u.isNegligible = true ∧ v.isNegligible = true := by
  unfold difference at h
  split_ifs at h with hv hu
  · exact ⟨h, hv⟩
  · exact absurd (isNegligible_negate h) hv
  · simp [isNegligible] at h

/-- A product is negligible only if a factor is. -/
theorem isNegligible_product (h : (product u v).isNegligible = true) :
    u.isNegligible = true ∨ v.isNegligible = true := by
  unfold product at h
  split_ifs at h with hzero
  · exact Bool.or_eq_true_iff.mp hzero
  · exact .inr h
  · exact .inl h
  · simp [isNegligible] at h

/-- A scaled product is negligible only if one of its factors is. -/
theorem isNegligible_scaled (h : (scaled u v).isNegligible = true) :
    u.isNegligible = true ∨ v.isNegligible = true := by
  have hliteral {w : Expr ℝ} (hw : w.isLiteral 0 = true) : w.isNegligible = true := by
    cases w with
    | number c =>
      obtain rfl : c = 0 := by simpa [isLiteral] using hw
      exact isNegligible_zero
    | _ => simp [isLiteral] at hw
  unfold scaled at h
  split_ifs at h with hzero
  · exact (Bool.or_eq_true_iff.mp hzero).imp hliteral hliteral
  · exact .inr h
  · exact .inl h
  · simp [isNegligible] at h

/-- A quotient is negligible only if its numerator is. -/
theorem isNegligible_quotient (h : (quotient u v).isNegligible = true) : u.isNegligible = true := by
  unfold quotient at h
  split_ifs at h with hu
  · exact hu
  · simp [isNegligible] at h

/-- Every function but `sign` has a derivative that is written as no literal, so a negligible
derivative of a call means a negligible derivative of the argument. -/
theorem isNegligible_chain {f : Func} (hf : f ≠ .sign) (h : (chain f u u').isNegligible = true) :
    u'.isNegligible = true := by
  cases f with
  | sign => exact absurd rfl hf
  | asin | atan | asinh | acosh | atanh | log | ln | sqrt => exact isNegligible_quotient h
  | acos => exact isNegligible_negate (isNegligible_quotient h)
  | _ => exact (isNegligible_scaled h).resolve_left Bool.false_ne_true

/-- The quotient rule gives something negligible only if both derivatives are negligible. -/
theorem isNegligible_quotientRule (h : (quotientRule u v u' v').isNegligible = true) :
    u'.isNegligible = true ∧ v'.isNegligible = true := by
  unfold quotientRule at h
  split_ifs at h with hv hu
  · exact ⟨hu, hv⟩
  · exact ⟨h, hv⟩
  · simp [isNegligible] at h
  · simp [isNegligible] at h

/-- A power with its exponent lowered is negligible only if the base is. -/
theorem isNegligible_lowered (h : (lowered u v).isNegligible = true) : u.isNegligible = true := by
  cases v with
  | number n =>
    rw [lowered] at h
    split_ifs at h
    · exact h
    · simp [isNegligible] at h
  | _ => simp [lowered, isNegligible] at h

/-- The power rule gives a negligible derivative only to a power that is fixed: the base is fixed,
or a literal, or the exponent is negligible. -/
theorem isNegligible_powerRule (h : (powerRule u v u').isNegligible = true) :
    u'.isNegligible = true ∨ v.isNegligible = true ∨ u.isNegligible = true := by
  unfold powerRule at h
  split_ifs at h with hu' hzero hone
  · exact .inl hu'
  · cases v with
    | number c =>
      obtain rfl : c = 0 := by simpa [isLiteral] using hzero
      exact .inr (.inl isNegligible_zero)
    | _ => simp [isLiteral] at hzero
  · exact .inl h
  · rcases isNegligible_product h with hv | h
    · exact .inr (.inl hv)
    · rcases isNegligible_product h with hu | hu
      · exact .inr (.inr (isNegligible_lowered hu))
      · exact .inl hu

/-- The rule for varying exponents gives something negligible only if the derivative of the exponent
is, and one factor of the other term. -/
theorem isNegligible_exponentRule (h : (exponentRule u v u' v').isNegligible = true) :
    v'.isNegligible = true ∧ (u'.isNegligible = true ∨ v.isNegligible = true) := by
  obtain ⟨hleft, hright⟩ :=
    isNegligible_sum ((isNegligible_product h).resolve_left Bool.false_ne_true)
  refine ⟨(isNegligible_product hleft).resolve_right Bool.false_ne_true, ?_⟩
  split_ifs at hright with hu'
  · exact .inl hu'
  · exact .inr ((isNegligible_product hright).resolve_right Bool.false_ne_true)

end Negligible

section Dependence

variable {x : String} {e : Expr ℝ}

/-- Among noticed literals only zero is dropped as a term. -/
theorem denote_eq_zero {u : Expr ℝ} (hu : u.LiteralsIn IsNoticed) (h : u.isNegligible = true)
    (p : Point ℝ) : u.denote p = 0 := by
  cases u with
  | number c =>
    rcases hu with rfl | hc
    · rfl
    · exact absurd hc ((Scalar.negligible_iff c).mp h).not_ge
  | _ => simp [isNegligible] at h

/-- Without the variable, an expression has the same value wherever the variable is. -/
theorem isFixed_of_not_contains (h : ¬e.contains x = true) : e.IsFixed x :=
  fun _ a _ => denote_insert_of_not_contains (Bool.eq_false_iff.mpr h) a

/-- A literal has no variable. -/
theorem not_contains_of_isNegligible (h : e.isNegligible = true) : ¬e.contains x = true := by
  cases e with
  | number c => simp [contains]
  | _ => simp [isNegligible] at h

/-- An expression whose derivative is negligible does not depend on the variable, if its literals
are all noticed. -/
theorem isFixed_of_isNegligible (hliterals : e.LiteralsIn IsNoticed) (hsign : e.IsSignFree)
    (h : (e.derive x).isNegligible = true) : e.IsFixed x := by
  induction e with
  | number c | constant c => exact fun _ _ _ => rfl
  | symbol name =>
    apply isFixed_of_not_contains
    intro hname
    have hx : (name == x) = true := hname
    rw [derive, if_pos hx] at h
    exact not_isNegligible_one h
  | call f u ih =>
    unfold derive at h
    split_ifs at h with hx
    · have hu := ih hliterals hsign.2 (isNegligible_chain hsign.1 h)
      intro p a b
      exact congrArg f.apply (hu p a b)
    · exact isFixed_of_not_contains hx
  | add u v ihu ihv =>
    obtain ⟨hu', hv'⟩ := isNegligible_sum h
    have hu := ihu hliterals.1 hsign.1 hu'
    have hv := ihv hliterals.2 hsign.2 hv'
    intro p a b
    exact congrArg₂ (· + ·) (hu p a b) (hv p a b)
  | sub u v ihu ihv =>
    obtain ⟨hu', hv'⟩ := isNegligible_difference h
    have hu := ihu hliterals.1 hsign.1 hu'
    have hv := ihv hliterals.2 hsign.2 hv'
    intro p a b
    exact congrArg₂ (· - ·) (hu p a b) (hv p a b)
  | mul u v ihu ihv =>
    obtain ⟨hleft, hright⟩ := isNegligible_sum h
    intro p a b
    rw [denote_mul, denote_mul]
    -- A factor that is dropped is zero, and then so is the product.
    rcases isNegligible_product hleft with hu' | hzero
    · rcases isNegligible_product hright with hzero | hv'
      · simp only [denote_eq_zero hliterals.1 hzero, zero_mul]
      · rw [ihu hliterals.1 hsign.1 hu' p a b, ihv hliterals.2 hsign.2 hv' p a b]
    · simp only [denote_eq_zero hliterals.2 hzero, mul_zero]
  | div u v ihu ihv =>
    obtain ⟨hu', hv'⟩ := isNegligible_quotientRule h
    have hu := ihu hliterals.1 hsign.1 hu'
    have hv := ihv hliterals.2 hsign.2 hv'
    intro p a b
    exact congrArg₂ (· / ·) (hu p a b) (hv p a b)
  | pow u v ihu ihv =>
    intro p a b
    rw [denote_pow, denote_pow]
    unfold derive at h
    split_ifs at h with hx
    · obtain ⟨hv', hu' | hzero⟩ := isNegligible_exponentRule h
      · rw [ihu hliterals.1 hsign.1 hu' p a b, ihv hliterals.2 hsign.2 hv' p a b]
      · exact absurd hx (not_contains_of_isNegligible hzero)
    · rcases isNegligible_powerRule h with hu' | hzero | hzero
      · rw [ihu hliterals.1 hsign.1 hu' p a b, isFixed_of_not_contains hx p a b]
      · simp only [denote_eq_zero hliterals.2 hzero, Real.rpow_zero]
      · rw [isFixed_of_not_contains (not_contains_of_isNegligible hzero) p a b,
          isFixed_of_not_contains hx p a b]

/-- A variable with a fixed factor. -/
def multiple (c : ℝ) (x : String) : Expr ℝ := mul (number c) (symbol x)

/-- The derivative of a multiple is its factor, unless the factor is taken for zero or one. -/
theorem derive_multiple (c : ℝ) (x : String) : (multiple c x).derive x =
    if Scalar.negligible c then zero else if Scalar.nearOne c then one else number c := by
  have hleft : product zero (symbol x) = zero :=
    if_pos (Bool.or_eq_true_iff.mpr (.inl isNegligible_zero))
  have hone : (one : Expr ℝ).isNearOne = true := by
    norm_num [one, isNearOne, Scalar.nearOne_iff]
  have hkept : (one : Expr ℝ).isNegligible = false := Bool.eq_false_iff.mpr not_isNegligible_one
  have hname : (x == x) = true := by simp
  calc (multiple c x).derive x
    _ = sum (product zero (symbol x)) (product (number c) (if x == x then one else zero)) := rfl
    _ = product (number c) one := by rw [hleft, if_pos hname, sum, if_pos isNegligible_zero]
    _ = _ := by
      simp only [product, hkept, Bool.or_false, hone, if_true]
      rfl

/-- The derivative of a multiple is dropped if the factor is below the tolerance. -/
theorem isNegligible_derive_multiple {c : ℝ} (hc : |c| < 1e-10) (x : String) :
    ((multiple c x).derive x).isNegligible = true := by
  rw [derive_multiple, if_pos ((Scalar.negligible_iff c).mpr hc)]
  exact isNegligible_zero

/-- The value of a multiple is the factor times the value of the variable. -/
theorem evaluate_multiple (c : ℝ) (x : String) (p : Point ℝ) (a : ℝ) :
    (multiple c x).evaluate (p.insert x a) = .ok (c * a) := by
  refine evaluate_eq_ok_iff.mpr ⟨⟨trivial, Std.ExtTreeMap.mem_insert_self⟩, ?_, rfl⟩
  simp [multiple]

/-- The derivative of a multiple has the value of its factor only if the factor is not dropped. -/
theorem denote_derive_multiple_eq_iff (c : ℝ) (x : String) (p : Point ℝ) :
    ((multiple c x).derive x).denote p = c ↔
      IsNoticed c ∧ (c = 1 ∨ 1e-10 ≤ |c - 1|) := by
  rw [derive_multiple]
  unfold IsNoticed
  split_ifs with hzero hone
  · have hlt := (Scalar.negligible_iff c).mp hzero
    rw [denote_zero, or_iff_left hlt.not_ge, eq_comm]
    refine (and_iff_left_of_imp ?_).symm
    rintro rfl
    exact .inr (by norm_num)
  · have hle := not_lt.mp (mt (Scalar.negligible_iff c).mpr hzero)
    have hlt := (Scalar.nearOne_iff c).mp hone
    rw [denote_one, or_iff_left hlt.not_ge, and_iff_right (.inr hle), eq_comm]
  · have hle := not_lt.mp (mt (Scalar.negligible_iff c).mpr hzero)
    have hle' := not_lt.mp (mt (Scalar.nearOne_iff c).mpr hone)
    exact iff_of_true rfl ⟨.inr hle, .inr hle'⟩

/-- A derivative keeps the dependence on every variable exactly as long as no literal is negligible
without being zero. -/
theorem dependence_kept_iff (S : Set ℝ) :
    ((∀ (e : Expr ℝ) (x : String), e.LiteralsIn (· ∈ S) → e.IsSignFree →
        (e.derive x).isNegligible = true → ∀ (p : Point ℝ) (a b y z : ℝ),
          e.evaluate (p.insert x a) = .ok y → e.evaluate (p.insert x b) = .ok z → y = z) ↔
      ∀ c ∈ S, c = 0 ∨ 1e-10 ≤ |c|) ∧
    ∀ (c : ℝ) (x : String) (p : Point ℝ) (a : ℝ),
      ((multiple c x).derive x).evaluate (p.insert x a) = .ok c ↔
        (c = 0 ∨ 1e-10 ≤ |c|) ∧ (c = 1 ∨ 1e-10 ≤ |c - 1|) := by
  refine ⟨⟨?_, ?_⟩, ?_⟩
  · -- A literal that is dropped would make its multiples fixed.
    intro h c hc
    by_contra hdropped
    obtain ⟨hne, hlt⟩ := not_or.mp hdropped
    have heq := h (multiple c "x") "x" ⟨hc, trivial⟩ ⟨trivial, trivial⟩
      (isNegligible_derive_multiple (not_le.mp hlt) "x") ∅ 1 0 _ _
      (evaluate_multiple c "x" ∅ 1) (evaluate_multiple c "x" ∅ 0)
    exact hne (by simpa using heq)
  · intro hS e x hliterals hsign h p a b y z hy hz
    have hfixed := isFixed_of_isNegligible (hliterals.imp hS) hsign h p a b
    rwa [(evaluate_eq_ok_iff.mp hy).2.1, (evaluate_eq_ok_iff.mp hz).2.1] at hfixed
  · intro c x p a
    have hresolves : ((multiple c x).derive x).Resolves (p.insert x a) :=
      (evaluate_eq_ok_iff.mp (evaluate_multiple c x p a)).1.derive x
    rw [evaluate_eq_ok_iff, and_iff_right hresolves]
    exact (and_iff_left rfl).trans (denote_derive_multiple_eq_iff c x (p.insert x a))

/-- The multiple of a variable by `6.674e-11`, as it occurs in equations of physics, is what the
parser makes of `6.674e-11*x`, and it is taken to be fixed. -/
theorem dependence_lost_of_small_factor :
    Parser.parseAll 11 [⟨.number (6674 / 10 ^ 14), ⟨0, 9⟩⟩, ⟨.operator .mul, ⟨9, 10⟩⟩,
        ⟨.identifier "x", ⟨10, 11⟩⟩] = .ok (multiple (6674 / 10 ^ 14) "x") ∧
      (multiple (6674 / 10 ^ 14) "x").IsSignFree ∧
      ((multiple (6674 / 10 ^ 14) "x").derive "x").isNegligible = true ∧
      (multiple (6674 / 10 ^ 14) "x").evaluate ((∅ : Point ℝ).insert "x" 0) = .ok 0 ∧
      (multiple (6674 / 10 ^ 14) "x").evaluate ((∅ : Point ℝ).insert "x" 1) =
        .ok (6674 / 10 ^ 14) := by
  refine ⟨?_, ⟨trivial, trivial⟩, isNegligible_derive_multiple ?_ "x", ?_, ?_⟩
  · have hx : Constant.ofName? "x" = none := by decide
    exact Parser.Derives.parseAll_eq_ok (.term (.mul _ (.factor (.unsigned (.base (.number _ _))))
      (.unsigned (.base (.symbol _ hx))))) 11
  · norm_num
  · simpa using evaluate_multiple (6674 / 10 ^ 14) "x" ∅ 0
  · simpa using evaluate_multiple (6674 / 10 ^ 14) "x" ∅ 1

end Dependence

end Expr

end ErrorBudget
