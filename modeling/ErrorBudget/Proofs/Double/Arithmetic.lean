import ErrorBudget.Proofs.Double.Rounding
import ErrorBudget.Proofs.Printing.Meaning

/-!
# Arithmetic of magnitudes

What floating-point arithmetic does to numbers that are not negative. Sums, products and roots of
such numbers are not negative, whatever is infinite or undefined among them (`not_lt_zero_add`,
`not_lt_zero_mul`, `not_lt_zero_sqrt`). Nothing that is not finite is lost: a sum, a product or a
root is finite only if everything that it is computed from is (`isFinite_of_add`, `isFinite_of_mul`,
`isFinite_of_sqrt`).

For finite numbers, a bound of the exact result bounds the computed one up to rounding, as long as
it stays below the infinite ones (`AtMost.add`, `AtMost.mul`).
-/

set_option autoImplicit false

namespace ErrorBudget.Double

open Float.Model Float.Model.UnpackedFloat

variable {x y : Float}

section Operations

/-- The parts of a sum are those of the rounded sum of the parts. -/
theorem parts_add (x y : Float) : parts (x + y) =
    (Float.Model.pack (UnpackedFloat.add .binary64 (parts x) (parts y))).unpack := by rfl

/-- The parts of a product are those of the rounded product of the parts. -/
theorem parts_mul (x y : Float) : parts (x * y) =
    (Float.Model.pack (UnpackedFloat.mul .binary64 (parts x) (parts y))).unpack := by rfl

/-- The parts of a difference are those of the rounded difference of the parts. -/
theorem parts_sub (x y : Float) : parts (x - y) =
    (Float.Model.pack (UnpackedFloat.sub .binary64 (parts x) (parts y))).unpack := by rfl

/-- The parts of a quotient are those of the rounded quotient of the parts. -/
theorem parts_div (x y : Float) : parts (x / y) =
    (Float.Model.pack (UnpackedFloat.div .binary64 (parts x) (parts y))).unpack := by rfl

/-- The parts of a root are those of the rounded root of the parts. -/
theorem parts_sqrt (x : Float) : parts x.sqrt =
    (Float.Model.pack (UnpackedFloat.sqrt .binary64 (parts x))).unpack := by rfl

/-- The parts of a number are packed into its bits. -/
theorem unpack_pack_parts (x : Float) : (Float.Model.pack (parts x)).unpack = parts x :=
  (packs_parts x).unpack_pack

/-- A square does not depend on the sign. -/
theorem abs_mul_abs (x : Float) : x.abs * x.abs = x * x := by
  apply parts_injective
  rw [parts_mul, parts_mul, parts_abs]
  rcases parts x with (_ | _) | _ | (_ | _) | ⟨_ | _, m, e, hpos⟩ <;> rfl

end Operations

section Results

variable {m₁ m₂ : Nat} {e₁ e₂ : Int}

/-- The parts of a number are canonical. -/
theorem isCanonical_of_parts {s : Sign} {m : Nat} {e : Int} {hpos : 0 < m}
    (h : parts x = .finite s m e hpos) : IsCanonical m e :=
  (h ▸ packs_parts x : Packs (.finite s m e hpos) x.toBits.toNat).isCanonical

/-- The sum of two positive numbers is rounded once. -/
theorem roundsTo_add (hpos₁ : 0 < m₁) (hpos₂ : 0 < m₂) :
    RoundsTo .positive (m₁ * 2 ^ e₁ + m₂ * 2 ^ e₂)
      (Float.Model.pack (UnpackedFloat.add .binary64 (.finite .positive m₁ e₁ hpos₁)
        (.finite .positive m₂ e₂ hpos₂))).unpack := by
  obtain ⟨j, hj⟩ : ∃ j : Nat, (e₁ - min e₁ e₂).toNat = j := ⟨_, rfl⟩
  obtain ⟨k, hk⟩ : ∃ k : Nat, (e₂ - min e₁ e₂).toNat = k := ⟨_, rfl⟩
  have hsum : 0 < m₁ * 2 ^ j + m₂ * 2 ^ k :=
    Nat.add_pos_left (Nat.mul_pos hpos₁ (Nat.two_pow_pos j)) _
  have hvalue : ((m₁ * 2 ^ j + m₂ * 2 ^ k : Nat) : ℝ) * 2 ^ min e₁ e₂ =
      m₁ * 2 ^ e₁ + m₂ * 2 ^ e₂ := by
    have h₁ : (2 : ℝ) ^ e₁ = 2 ^ j * 2 ^ min e₁ e₂ := by
      rw [← zpow_natCast, ← zpow_add₀ two_ne_zero]
      congr 1
      omega
    have h₂ : (2 : ℝ) ^ e₂ = 2 ^ k * 2 ^ min e₁ e₂ := by
      rw [← zpow_natCast, ← zpow_add₀ two_ne_zero]
      congr 1
      omega
    rw [h₁, h₂]
    push_cast
    ring
  have hcompare : compare ((m₁ * 2 ^ j : Nat) + (m₂ * 2 ^ k : Nat) : Int) 0 = .gt := by
    rw [Int.compare_eq_gt]
    omega
  unfold UnpackedFloat.add decreaseExponent UnpackedFloat.normalize
  simp only [Sign.apply, Nat.shiftLeft_eq, hj, hk, hcompare]
  rw [← hvalue]
  exact roundsTo_round hsum

/-- The product of two positive numbers is rounded once: the digits of the product are enough, as a
number without a leading digit has the lowest exponent. -/
theorem roundsTo_mul (hcanonical₁ : IsCanonical m₁ e₁) (hcanonical₂ : IsCanonical m₂ e₂)
    (hpos₁ : 0 < m₁) (hpos₂ : 0 < m₂) :
    RoundsTo .positive (m₁ * 2 ^ e₁ * (m₂ * 2 ^ e₂))
      (Float.Model.pack (UnpackedFloat.mul .binary64 (.finite .positive m₁ e₁ hpos₁)
        (.finite .positive m₂ e₂ hpos₂))).unpack := by
  have hvalue : ((m₁ * m₂ : Nat) : ℝ) * 2 ^ (e₁ + e₂) = m₁ * 2 ^ e₁ * (m₂ * 2 ^ e₂) := by
    rw [zpow_add₀ two_ne_zero]
    push_cast
    ring
  have hlog : 2 ^ 52 ≤ m₁ * m₂ → 52 ≤ (m₁ * m₂).log2 := fun hle =>
    (Nat.le_log2 (Nat.ne_of_gt (Nat.mul_pos hpos₁ hpos₂))).mpr hle
  have hdigits : e₁ + e₂ ≤ max ((m₁ * m₂).log2 + (e₁ + e₂) - 52) (-1074) := by
    rcases hcanonical₁.leading with hlow | hmin₁
    · have hle := hlog (le_trans hlow (Nat.le_mul_of_pos_right m₁ hpos₂))
      omega
    · rcases hcanonical₂.leading with hlow | hmin₂
      · have hle := hlog (le_trans hlow (Nat.le_mul_of_pos_left m₂ hpos₁))
        omega
      · omega
  rw [← hvalue]
  exact roundsTo_roundWithAccuracy hdigits

/-- The root of a positive number is rounded once: the radicand gets as many digits as it takes for
the root to have enough of them. -/
theorem roundsTo_sqrt {m : Nat} {e : Int} (hpos : 0 < m) :
    ∃ v : ℝ, 0 ≤ v ∧ v ^ 2 ≤ m * 2 ^ e ∧ RoundsTo .positive v
      (Float.Model.pack (UnpackedFloat.sqrt .binary64 (.finite .positive m e hpos))).unpack := by
  obtain ⟨t, ht⟩ : ∃ t : Int, min (e.ediv 2)
      (Format.binary64.targetExponent ((totalExponent m e + 1).ediv 2)) = t := ⟨_, rfl⟩
  obtain ⟨k, hk⟩ : ∃ k : Nat, (e - 2 * t).toNat = k := ⟨_, rfl⟩
  have hshift : e = 2 * t + k ∧ (t ≤ -1074 ∨ 104 ≤ m.log2 + k) := by
    rw [targetExponent_eq, totalExponent] at ht
    change min (e / 2) (max (((m.log2 : Int) + 1 + e + 1) / 2 - 53) (-1074)) = t at ht
    omega
  have hsquare : ((Nat.sqrt (m * 2 ^ k) : ℝ) * 2 ^ t) ^ 2 ≤ m * 2 ^ e := by
    have hroot : (Nat.sqrt (m * 2 ^ k) : ℝ) ^ 2 ≤ m * 2 ^ k := by
      exact_mod_cast Nat.sqrt_le' (m * 2 ^ k)
    have htwo : (2 : ℝ) ^ e = 2 ^ k * (2 ^ t) ^ 2 := by
      rw [hshift.1, zpow_add₀ two_ne_zero, zpow_mul', zpow_ofNat, zpow_natCast, mul_comm]
    rw [mul_pow, htwo, ← mul_assoc]
    gcongr
  have hdigits : t ≤ max ((Nat.sqrt (m * 2 ^ k)).log2 + t - 52) (-1074) := by
    rcases hshift.2 with hmin | hlog
    · omega
    · have hlarge : 2 ^ 104 ≤ m * 2 ^ k := by
        rw [← log2_mul_two_pow hpos] at hlog
        exact (Nat.le_log2 (Nat.ne_of_gt (Nat.mul_pos hpos (Nat.two_pow_pos k)))).mp hlog
      have hroot : 2 ^ 52 ≤ Nat.sqrt (m * 2 ^ k) := Nat.le_sqrt'.mpr (by omega)
      have hdigits := (Nat.le_log2 (by omega)).mpr hroot
      omega
  refine ⟨_, by positivity, hsquare, ?_⟩
  unfold UnpackedFloat.sqrt sqrtCore
  simp only [ht, hk, Nat.shiftLeft_eq]
  exact roundsTo_roundWithAccuracy hdigits

end Results

section Signs

/-- The parts of a number that is not negative. -/
inductive IsMagnitude : UnpackedFloat → Prop
  | notANumber : IsMagnitude .notANumber
  | infinity : IsMagnitude (.infinity .positive)
  | zero (s : Sign) : IsMagnitude (.zero s)
  | finite {m : Nat} {e : Int} (hpos : 0 < m) : IsMagnitude (.finite .positive m e hpos)

/-- A magnitude is a number that is not below zero; this includes what is undefined. -/
theorem isMagnitude_iff : IsMagnitude (parts x) ↔ ¬x < 0 := by
  rw [lt_zero_iff]
  rcases parts x with (_ | _) | _ | s | ⟨_ | _, m, e, hpos⟩
  · exact iff_of_false (fun h => nomatch h) (fun h => h rfl)
  · exact iff_of_true .infinity (fun h => nomatch h)
  · exact iff_of_true .notANumber (fun h => nomatch h)
  · exact iff_of_true (.zero s) (by cases s <;> exact fun h => nomatch h)
  · exact iff_of_false (fun h => nomatch h) (fun h => h rfl)
  · exact iff_of_true (.finite hpos) (fun h => nomatch h)

/-- What a number that is not negative is rounded to is a magnitude. -/
theorem RoundsTo.isMagnitude {v : ℝ} {u : UnpackedFloat} (h : RoundsTo .positive v u) :
    IsMagnitude u := by
  cases h with
  | zero => exact .zero .positive
  | finite hpos => exact .finite hpos
  | infinity => exact .infinity

/-- A magnitude stays one when it is packed. -/
theorem IsMagnitude.of_packs {u : UnpackedFloat} {n : Nat} (h : IsMagnitude u)
    (hpacks : Packs u n) :
    IsMagnitude (Float.Model.pack u).unpack :=
  hpacks.unpack_pack.symm ▸ h

/-- What is undefined is a magnitude. -/
theorem isMagnitude_notANumber : IsMagnitude (Float.Model.pack .notANumber).unpack :=
  IsMagnitude.notANumber.of_packs .notANumber

/-- Infinity is a magnitude. -/
theorem isMagnitude_infinity : IsMagnitude (Float.Model.pack (.infinity .positive)).unpack :=
  IsMagnitude.infinity.of_packs (.infinity .positive)

/-- Zero is a magnitude, with either sign. -/
theorem isMagnitude_zero (s : Sign) : IsMagnitude (Float.Model.pack (.zero s)).unpack :=
  (IsMagnitude.zero s).of_packs (.zero s)

/-- An absolute value is not below zero. -/
theorem not_lt_zero_abs (x : Float) : ¬x.abs < 0 := by
  rw [← isMagnitude_iff, parts_abs]
  rcases parts x with _ | _ | _ | ⟨_, m, e, hpos⟩
  · exact .infinity
  · exact .notANumber
  · exact .zero .positive
  · exact .finite hpos

/-- A sum of magnitudes is not below zero. -/
theorem not_lt_zero_add (hx : ¬x < 0) (hy : ¬y < 0) : ¬x + y < 0 := by
  have hpacks := packs_parts x
  have hpacks' := packs_parts y
  rw [← isMagnitude_iff] at *
  rw [parts_add]
  generalize parts x = u at *
  generalize parts y = v at *
  cases hx with
  | notANumber => cases hy <;> exact isMagnitude_notANumber
  | infinity =>
    cases hy with
    | notANumber => exact isMagnitude_notANumber
    | infinity | zero | finite => exact isMagnitude_infinity
  | zero s =>
    cases hy with
    | notANumber => exact isMagnitude_notANumber
    | infinity => exact isMagnitude_infinity
    | zero t => cases s <;> cases t <;> exact isMagnitude_zero _
    | finite hpos => exact (IsMagnitude.finite hpos).of_packs hpacks'
  | finite hpos =>
    cases hy with
    | notANumber => exact isMagnitude_notANumber
    | infinity => exact isMagnitude_infinity
    | zero => exact (IsMagnitude.finite hpos).of_packs hpacks
    | finite hpos' => exact (roundsTo_add hpos hpos').isMagnitude

/-- A product of magnitudes is not below zero. -/
theorem not_lt_zero_mul (hx : ¬x < 0) (hy : ¬y < 0) : ¬x * y < 0 := by
  have hcanonical {m : Nat} {e : Int} {hpos : 0 < m} {z : Float}
      (h : parts z = .finite .positive m e hpos) := isCanonical_of_parts h
  rw [← isMagnitude_iff] at *
  rw [parts_mul]
  generalize hu : parts x = u at *
  generalize hv : parts y = v at *
  cases hx with
  | notANumber => cases hy <;> exact isMagnitude_notANumber
  | infinity =>
    cases hy with
    | notANumber | zero => exact isMagnitude_notANumber
    | infinity | finite => exact isMagnitude_infinity
  | zero s =>
    cases hy with
    | notANumber | infinity => exact isMagnitude_notANumber
    | zero t => exact isMagnitude_zero _
    | finite hpos => exact isMagnitude_zero _
  | finite hpos =>
    cases hy with
    | notANumber => exact isMagnitude_notANumber
    | infinity => exact isMagnitude_infinity
    | zero => exact isMagnitude_zero _
    | finite hpos' =>
      exact RoundsTo.isMagnitude (roundsTo_mul (hcanonical hu) (hcanonical hv) hpos hpos')

/-- The root of a magnitude is not below zero. -/
theorem not_lt_zero_sqrt (hx : ¬x < 0) : ¬x.sqrt < 0 := by
  rw [← isMagnitude_iff] at *
  rw [parts_sqrt]
  generalize parts x = u at *
  cases hx with
  | notANumber => exact isMagnitude_notANumber
  | infinity => exact isMagnitude_infinity
  | zero s => exact isMagnitude_zero s
  | finite hpos =>
    obtain ⟨v, -, -, hrounds⟩ := roundsTo_sqrt hpos
    exact hrounds.isMagnitude

end Signs

section Finiteness

variable {u v : UnpackedFloat}

/-- What is not finite does not become so by being packed. -/
theorem isFinite_of_unpack_pack (h : (Float.Model.pack u).unpack.isFinite = true) :
    u.isFinite = true := by
  cases u with
  | notANumber => exact h
  | infinity s => cases s <;> exact h
  | zero | finite => rfl

/-- A sum is finite only if its terms are. -/
theorem isFinite_of_add (h : (x + y).isFinite = true) :
    x.isFinite = true ∧ y.isFinite = true := by
  rw [isFinite_eq, parts_add] at h
  rw [isFinite_eq, isFinite_eq]
  generalize parts x = u at *
  generalize parts y = v at *
  have hsum := isFinite_of_unpack_pack h
  rcases u with (_ | _) | _ | _ | _ <;> rcases v with (_ | _) | _ | _ | _ <;>
    first | exact ⟨rfl, rfl⟩ | exact absurd hsum Bool.false_ne_true

/-- A product is finite only if its factors are. -/
theorem isFinite_of_mul (h : (x * y).isFinite = true) :
    x.isFinite = true ∧ y.isFinite = true := by
  rw [isFinite_eq, parts_mul] at h
  rw [isFinite_eq, isFinite_eq]
  generalize parts x = u at *
  generalize parts y = v at *
  have hproduct := isFinite_of_unpack_pack h
  rcases u with _ | _ | _ | _ <;> rcases v with _ | _ | _ | _ <;>
    first | exact ⟨rfl, rfl⟩ | exact absurd hproduct Bool.false_ne_true

/-- A root is finite only if its radicand is. -/
theorem isFinite_of_sqrt (h : x.sqrt.isFinite = true) : x.isFinite = true := by
  rw [isFinite_eq, parts_sqrt] at h
  rw [isFinite_eq]
  generalize parts x = u at *
  have hroot := isFinite_of_unpack_pack h
  rcases u with (_ | _) | _ | _ | _ <;> first | rfl | exact absurd hroot Bool.false_ne_true

end Finiteness

section Bounds

/-- The exact value of a finite number, and zero for any other. -/
noncomputable def value (x : Float) : ℝ := Interpretation.exactLiteral x

/-- The value of zero, with either sign, is zero. -/
theorem value_of_zero {s : Sign} (h : parts x = .zero s) : value x = 0 := by
  simp [value, Interpretation.exactLiteral, h]

/-- The value of a positive number is its mantissa times a power of two. -/
theorem value_of_positive {m : Nat} {e : Int} {hpos : 0 < m}
    (h : parts x = .finite .positive m e hpos) : value x = m * 2 ^ e := by
  simp [value, Interpretation.exactLiteral, h]

/-- The value of an absolute value is the magnitude of the value. -/
theorem value_abs (x : Float) : value x.abs = |value x| := by
  unfold value Interpretation.exactLiteral
  rw [parts_abs]
  rcases parts x with _ | _ | _ | ⟨_ | _, m, e, hpos⟩ <;> simp [UnpackedFloat.abs, abs_mul]

/-- Whether a number is finite, not negative, and at most a bound. -/
structure AtMost (x : Float) (r : ℝ) : Prop where
  isFinite : x.isFinite = true
  not_lt_zero : ¬x < 0
  le : value x ≤ r

variable {a b r v : ℝ}

/-- A finite number that is not negative is a zero, or it is positive. -/
theorem AtMost.cases (h : AtMost x r) : (∃ s, parts x = .zero s) ∨
    ∃ m e, ∃ hpos : 0 < m, parts x = .finite .positive m e hpos := by
  have hfinite := h.isFinite
  have hmagnitude := isMagnitude_iff.mpr h.not_lt_zero
  rw [isFinite_eq] at hfinite
  generalize parts x = u at *
  cases hmagnitude with
  | notANumber | infinity => contradiction
  | zero s => exact .inl ⟨s, rfl⟩
  | finite hpos => exact .inr ⟨_, _, hpos, rfl⟩

/-- A bounded number has a value that is not negative. -/
theorem AtMost.nonneg (h : AtMost x r) : 0 ≤ value x := by
  rcases h.cases with ⟨s, hs⟩ | ⟨m, e, hpos, hm⟩
  · exact (value_of_zero hs).ge
  · rw [value_of_positive hm]
    positivity

/-- A bound can be raised. -/
theorem AtMost.mono (h : AtMost x a) (hab : a ≤ b) : AtMost x b :=
  ⟨h.isFinite, h.not_lt_zero, h.le.trans hab⟩

/-- Zero is within every bound that is not negative. -/
theorem atMost_of_zero {s : Sign} (h : parts x = .zero s) (hr : 0 ≤ r) : AtMost x r := by
  refine ⟨?_, isMagnitude_iff.mp (h ▸ .zero s), (value_of_zero h).trans_le hr⟩
  rw [isFinite_eq, h]
  rfl

/-- The absolute value of a finite number is bounded by the magnitude of its value. -/
theorem atMost_abs (hfinite : x.isFinite = true) : AtMost x.abs |value x| :=
  ⟨(isFinite_abs x).trans hfinite, not_lt_zero_abs x, (value_abs x).le⟩

/-- The bound after one rounding is no lower. -/
theorem le_inflate (hr : 0 ≤ r) : r ≤ inflate r := by
  unfold inflate
  have hsmall := smallest_pos
  have hepsilon := epsilon_pos
  nlinarith

/-- A number that is rounded from an exact result below the infinite ones is finite. -/
theorem RoundsTo.atMost (h : RoundsTo .positive v (parts x)) (hr : 0 ≤ r) (hle : v ≤ r)
    (hfits : inflate r < overflow) : AtMost x (inflate r) := by
  have hinflate := inflate_le_inflate hle
  generalize hu : parts x = u at h
  cases h with
  | zero => exact atMost_of_zero hu (hr.trans (le_inflate hr))
  | finite hpos hm =>
    refine ⟨?_, isMagnitude_iff.mp (hu ▸ .finite hpos), ?_⟩
    · rw [isFinite_eq, hu]
      rfl
    · rw [value_of_positive hu]
      exact hm.trans hinflate
  | infinity hlarge => exact absurd hfits (not_lt_of_ge (hlarge.trans hinflate))

/-- A sum of bounded numbers is bounded by the sum of the bounds, after one rounding. -/
theorem AtMost.add (hx : AtMost x a) (hy : AtMost y b) (hfits : inflate (a + b) < overflow) :
    AtMost (x + y) (inflate (a + b)) := by
  have ha := hx.nonneg.trans hx.le
  have hb := hy.nonneg.trans hy.le
  have hsum := le_inflate (add_nonneg ha hb)
  rcases hx.cases with ⟨s, hs⟩ | ⟨m, e, hpos, hm⟩
  · rcases hy.cases with ⟨s', hs'⟩ | ⟨m', e', hpos', hm'⟩
    · have hparts : ∃ t, parts (x + y) = .zero t := by
        rw [parts_add, hs, hs']
        cases s <;> cases s' <;> exact ⟨_, rfl⟩
      obtain ⟨t, ht⟩ := hparts
      exact atMost_of_zero ht (by linarith)
    · have hparts : x + y = y := by
        apply parts_injective
        have hpack := unpack_pack_parts y
        rw [parts_add, hs]
        rw [hm'] at hpack ⊢
        exact hpack
      rw [hparts]
      exact hy.mono (by linarith)
  · rcases hy.cases with ⟨s', hs'⟩ | ⟨m', e', hpos', hm'⟩
    · have hparts : x + y = x := by
        apply parts_injective
        have hpack := unpack_pack_parts x
        rw [parts_add, hs']
        rw [hm] at hpack ⊢
        exact hpack
      rw [hparts]
      exact hx.mono (by linarith)
    · have hrounds := @roundsTo_add m m' e e' hpos hpos'
      rw [← hm, ← hm', ← parts_add, ← value_of_positive hm, ← value_of_positive hm'] at hrounds
      exact hrounds.atMost (add_nonneg ha hb) (add_le_add hx.le hy.le) hfits

/-- A product of bounded numbers is bounded by the product of the bounds, after one rounding. -/
theorem AtMost.mul (hx : AtMost x a) (hy : AtMost y b) (hfits : inflate (a * b) < overflow) :
    AtMost (x * y) (inflate (a * b)) := by
  have ha := hx.nonneg.trans hx.le
  have hb := hy.nonneg.trans hy.le
  have hproduct := (mul_nonneg ha hb).trans (le_inflate (mul_nonneg ha hb))
  rcases hx.cases with ⟨s, hs⟩ | ⟨m, e, hpos, hm⟩
  · rcases hy.cases with ⟨s', hs'⟩ | ⟨m', e', hpos', hm'⟩
    · have hparts : parts (x * y) = .zero (s * s') := by
        rw [parts_mul, hs, hs']
        exact (Packs.zero _).unpack_pack
      exact atMost_of_zero hparts hproduct
    · have hparts : parts (x * y) = .zero (s * .positive) := by
        rw [parts_mul, hs, hm']
        exact (Packs.zero _).unpack_pack
      exact atMost_of_zero hparts hproduct
  · rcases hy.cases with ⟨s', hs'⟩ | ⟨m', e', hpos', hm'⟩
    · have hparts : parts (x * y) = .zero (.positive * s') := by
        rw [parts_mul, hs', hm]
        exact (Packs.zero _).unpack_pack
      exact atMost_of_zero hparts hproduct
    · have hrounds := roundsTo_mul (isCanonical_of_parts hm) (isCanonical_of_parts hm') hpos hpos'
      rw [← hm, ← hm', ← parts_mul, ← value_of_positive hm, ← value_of_positive hm'] at hrounds
      exact hrounds.atMost (mul_nonneg ha hb) (mul_le_mul hx.le hy.le hy.nonneg ha) hfits

/-- All finite numbers lie below the infinite ones. -/
theorem value_lt {m : Nat} {e : Int} {hpos : 0 < m} (h : parts x = .finite .positive m e hpos) :
    (m : ℝ) * 2 ^ e < overflow := by
  have hpacks : Packs (.finite .positive m e hpos) x.toBits.toNat := h ▸ packs_parts x
  calc (m : ℝ) * 2 ^ e
    _ < 2 ^ 53 * 2 ^ (971 : ℤ) := by
      refine mul_lt_mul ?_ ?_ (by positivity) (by positivity)
      · exact_mod_cast hpacks.isCanonical.lt
      · exact zpow_le_zpow_right₀ one_le_two hpacks.exponent_le
    _ = overflow := by
      rw [overflow_eq, show (2 : ℝ) ^ (971 : ℤ) = 2 ^ 971 from rfl, ← pow_add]

/-- No value has a larger magnitude than the overflow threshold. -/
theorem abs_value_le (x : Float) : |value x| ≤ overflow := by
  rw [← value_abs]
  have hoverflow := overflow_pos.le
  rcases hx : parts x.abs with s | _ | s | ⟨_ | _, m, e, hpos⟩
  · simpa [value, Interpretation.exactLiteral, hx] using hoverflow
  · simpa [value, Interpretation.exactLiteral, hx] using hoverflow
  · exact (value_of_zero hx).trans_le hoverflow
  · refine le_trans ?_ hoverflow
    simp only [value, Interpretation.exactLiteral, hx]
    push_cast
    exact neg_nonpos.mpr (by positivity)
  · exact (value_of_positive hx).trans_le (value_lt hx).le

/-- The root of a finite number is finite: it has half as many digits before the point. -/
theorem AtMost.isFinite_sqrt (h : AtMost x r) : x.sqrt.isFinite = true := by
  rcases h.cases with ⟨s, hs⟩ | ⟨m, e, hpos, hm⟩
  · have hparts : parts x.sqrt = .zero s := by
      rw [parts_sqrt, hs]
      exact (Packs.zero s).unpack_pack
    exact (atMost_of_zero hparts le_rfl).isFinite
  · obtain ⟨v, hv, hsquare, hrounds⟩ := @roundsTo_sqrt m e hpos
    rw [← hm, ← parts_sqrt] at hrounds
    have hroot : v ≤ 2 ^ 512 := by
      refine (pow_le_pow_iff_left₀ hv (by positivity) two_ne_zero).mp ?_
      have hle := hsquare.trans (value_lt hm).le
      rw [overflow_eq] at hle
      rwa [← pow_mul]
    have hfits : inflate (2 ^ 512) < overflow :=
      calc inflate (2 ^ 512)
        _ ≤ 2 ^ 512 * 2 + 1 := by
          unfold inflate
          gcongr
          · rw [epsilon_eq]
            norm_num
          · rw [smallest_eq]
            exact zpow_le_one_of_nonpos₀ one_le_two (by decide)
        _ ≤ 2 ^ 512 * 2 + 2 ^ 512 * 2 := by
          gcongr
          exact one_le_mul_of_one_le_of_one_le (one_le_pow₀ one_le_two) one_le_two
        _ = 2 ^ 514 := by rw [← mul_two, mul_assoc, ← pow_two, ← pow_add]
        _ < overflow := by
          rw [overflow_eq]
          exact pow_lt_pow_right₀ one_lt_two (by decide)
    exact (hrounds.atMost (by positivity) hroot hfits).isFinite

end Bounds

end ErrorBudget.Double
