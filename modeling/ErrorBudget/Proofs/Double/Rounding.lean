import ErrorBudget.Proofs.Double.Integers

/-!
# Rounding

A sum, a product or a root is computed with as many digits as it takes, and then rounded to 53 of
them. Rounding keeps the sign, and it leads upward by at most one unit in the last place, that is by
`2 ^ (-52)` of the exact result, or by `2 ^ (-1074)` where numbers have no leading digit
(`inflate`). What lies above all finite numbers becomes infinite (`roundsTo_roundWithAccuracy`,
`roundsTo_round`).
-/

set_option autoImplicit false

namespace ErrorBudget.Double

open Float.Model Float.Model.UnpackedFloat

/-- The power of two above all finite numbers. -/
@[irreducible]
noncomputable def overflow : ℝ := (2 ^ 1024 : ℕ)

/-- The smallest number above zero. -/
@[irreducible]
noncomputable def smallest : ℝ := ((2 ^ 1074 : ℕ) : ℝ)⁻¹

/-- The distance from one to the next larger number. -/
@[irreducible]
noncomputable def epsilon : ℝ := ((2 ^ 52 : ℕ) : ℝ)⁻¹

/-- The largest number that an exact result can be rounded to. -/
noncomputable def inflate (v : ℝ) : ℝ := v * (1 + epsilon) + smallest

/-- Whether a mantissa and an exponent are those of a number, except that the exponent may be too
large. -/
structure IsCanonical (m : Nat) (e : Int) : Prop where
  lt : m < 2 ^ 53
  exponent_ge : -1074 ≤ e
  leading : 2 ^ 52 ≤ m ∨ e = -1074

/-- The parts of a number to which an exact result of a given sign and magnitude can be rounded. -/
inductive RoundsTo (s : Sign) (v : ℝ) : UnpackedFloat → Prop
  | zero : RoundsTo s v (.zero s)
  | finite {m : Nat} {e : Int} (hpos : 0 < m) (hle : m * 2 ^ e ≤ inflate v) :
      RoundsTo s v (.finite s m e hpos)
  | infinity (hle : overflow ≤ inflate v) : RoundsTo s v (.infinity s)

section Constants

/-- The overflow threshold as a power of two. -/
theorem overflow_eq : overflow = 2 ^ 1024 := by
  rw [overflow, Nat.cast_pow, Nat.cast_ofNat]

/-- The smallest positive number as a power of two. -/
theorem smallest_eq : smallest = 2 ^ (-1074 : ℤ) := by
  rw [smallest, Nat.cast_pow, Nat.cast_ofNat, zpow_neg]
  rfl

/-- The distance from one to the next number as a power of two. -/
theorem epsilon_eq : epsilon = 2 ^ (-52 : ℤ) := by
  rw [epsilon, Nat.cast_pow, Nat.cast_ofNat, zpow_neg]
  rfl

/-- The overflow threshold is positive. -/
theorem overflow_pos : 0 < overflow := by
  rw [overflow_eq]
  exact pow_pos two_pos 1024

/-- The smallest positive number is positive. -/
theorem smallest_pos : 0 < smallest := by
  rw [smallest_eq]
  positivity

/-- The distance from one to the next number is positive. -/
theorem epsilon_pos : 0 < epsilon := by
  rw [epsilon_eq]
  positivity

end Constants

section Canonical

variable {s : Sign} {m : Nat} {e : Int} {hpos : 0 < m}

/-- What can be packed is canonical. -/
theorem Packs.isCanonical {n : Nat} (h : Packs (.finite s m e hpos) n) : IsCanonical m e := by
  cases h with
  | subnormal _ _ hm => exact ⟨Nat.lt_trans hm (by decide), le_refl _, .inr rfl⟩
  | normal _ _ hlow hm => exact ⟨hm, by omega, .inl hlow⟩

/-- What can be packed has an exponent of at most 971. -/
theorem Packs.exponent_le {n : Nat} (h : Packs (.finite s m e hpos) n) : e ≤ 971 := by
  cases h <;> omega

/-- A canonical mantissa with an exponent that is not too large can be packed. -/
theorem IsCanonical.exists_packs (h : IsCanonical m e) (he : e ≤ 971) (hpos : 0 < m) :
    ∃ n, Packs (.finite s m e hpos) n := by
  rcases lt_or_ge m (2 ^ 52) with hm | hlow
  · obtain rfl : e = -1074 := h.leading.resolve_left (Nat.not_le.mpr hm)
    exact ⟨_, .subnormal s hpos hm⟩
  · have hge := h.exponent_ge
    obtain ⟨field, hfield⟩ : ∃ field : Nat, (field : Int) - 1075 = e := ⟨(e + 1075).toNat, by omega⟩
    have hpacks := @Packs.normal s m field hpos hlow h.lt (by omega) (by omega)
    rw [hfield] at hpacks
    exact ⟨_, hpacks⟩

/-- A number whose exponent is too large is packed as an infinity. -/
theorem unpack_pack_of_lt (he : 971 < e) :
    (Float.Model.pack (.finite s m e hpos)).unpack = .infinity s := by
  have hbias : Format.binary64.exponentBias = 1023 := by decide
  have hpack : Float.Model.pack (.finite s m e hpos) = Float.Model.pack (.infinity s) := by
    unfold Float.Model.pack UnpackedFloat.pack
    dsimp only
    congr 2
    rw [if_pos]
    rw [hbias]
    omega
  rw [hpack]
  exact (Packs.infinity s).unpack_pack

/-- A canonical number is packed as it is, or as an infinity if it lies above all finite numbers. -/
theorem IsCanonical.roundsTo {v : ℝ} (h : IsCanonical m e) (hle : m * 2 ^ e ≤ inflate v) :
    RoundsTo s v (Float.Model.pack (.finite s m e hpos)).unpack := by
  rcases le_or_gt e 971 with he | he
  · obtain ⟨n, hpacks⟩ := h.exists_packs (s := s) he hpos
    rw [hpacks.unpack_pack]
    exact .finite hpos hle
  · have hlow : 2 ^ 52 ≤ m := h.leading.resolve_right (by omega)
    rw [unpack_pack_of_lt he]
    refine .infinity (le_trans ?_ hle)
    calc overflow
      _ = 2 ^ 52 * 2 ^ (972 : ℤ) := by
        rw [overflow_eq, show (2 : ℝ) ^ (972 : ℤ) = 2 ^ 972 from rfl, ← pow_add]
      _ ≤ m * 2 ^ e := by
        gcongr
        · exact_mod_cast hlow
        · norm_num
        · omega

end Canonical

section Shifting

variable {m : Nat} {e : Int}

/-- Shifting an extended mantissa to the right divides it, the remainder aside. -/
theorem mantissa_repeat_shiftRightOne (em : ExtendedMantissa) (k : Nat) :
    (Nat.repeat ExtendedMantissa.shiftRightOne k em).mantissa = em.mantissa / 2 ^ k := by
  induction k with
  | zero => simp [Nat.repeat]
  | succ k ih =>
    rw [Nat.repeat, ExtendedMantissa.shiftRightOne, ih, Nat.div_div_eq_div_mul, Nat.pow_succ]

/-- Rounding leaves a mantissa or raises it by one. -/
theorem roundedMantissa_bounds (em : ExtendedMantissa) :
    em.mantissa ≤ em.roundedMantissa ∧ em.roundedMantissa ≤ em.mantissa + 1 := by
  obtain ⟨m, roundBit, stickyBit⟩ := em
  cases roundBit <;> cases stickyBit <;>
    simp [ExtendedMantissa.roundedMantissa, ExtendedMantissa.accuracy, Accuracy.roundToNearestEven]
  omega

/-- An extended mantissa starts out with the mantissa that it extends. -/
theorem mantissa_ofMantissaAndAccuracy (m : Nat) (accuracy : Accuracy) :
    (ExtendedMantissa.ofMantissaAndAccuracy m accuracy).mantissa = m := by
  rcases accuracy with _ | (_ | _ | _) <;> rfl

/-- Digits below the exponent that is aimed at are dropped. -/
theorem shiftToTargetExponent_eq_of_add (accuracy : Accuracy) {k : Nat}
    (hk : e + k = max (m.log2 + e - 52) (-1074)) :
    (shiftToTargetExponent .binary64 m e accuracy).1.mantissa = m / 2 ^ k ∧
      (shiftToTargetExponent .binary64 m e accuracy).2 = e + k := by
  have hamount : (max ((m.log2 : Int) + 1 + e - 53) (-1074) - e).toNat = k := by omega
  unfold shiftToTargetExponent shiftToExponent
  rw [targetExponent_eq, totalExponent]
  simp only [hamount, and_true]
  exact (mantissa_repeat_shiftRightOne _ k).trans
    (congrArg (· / 2 ^ k) (mantissa_ofMantissaAndAccuracy m accuracy))

/-- What is left of a mantissa has 53 digits, or fewer at the lowest exponent. -/
theorem div_bounds {k : Nat} (hk : e + k = max (m.log2 + e - 52) (-1074)) :
    m / 2 ^ k < 2 ^ 53 ∧ (2 ^ 52 ≤ m / 2 ^ k ∨ e + k = -1074) := by
  constructor
  · rw [Nat.div_lt_iff_lt_mul (Nat.two_pow_pos k), ← Nat.pow_add]
    exact Nat.lt_of_lt_of_le Nat.lt_log2_self (Nat.pow_le_pow_right (by decide) (by omega))
  · rcases eq_or_ne (e + (k : Int)) (-1074) with hmin | hmin
    · exact .inr hmin
    · left
      have hlog : m.log2 = 52 + k := by omega
      have hne : m ≠ 0 := by
        rintro rfl
        rw [Nat.log2_zero] at hlog
        omega
      rw [Nat.le_div_iff_mul_le (Nat.two_pow_pos k), ← Nat.pow_add, ← hlog]
      exact Nat.log2_self_le hne

/-- A mantissa that was rounded up to one more digit gives it back, as it is a zero. -/
theorem isCanonical_shiftToTargetExponent (hm : m ≤ 2 ^ 53) (he : -1074 ≤ e)
    (hleading : 2 ^ 52 ≤ m ∨ e = -1074) :
    ∃ m' e', (shiftToTargetExponent .binary64 m e .exact).1.mantissa = m' ∧
      (shiftToTargetExponent .binary64 m e .exact).2 = e' ∧ IsCanonical m' e' ∧
      (m' : ℝ) * 2 ^ e' = m * 2 ^ e := by
  rcases Nat.lt_or_eq_of_le hm with hlt | rfl
  · have hlog : m.log2 ≤ 52 := by
      rcases eq_or_ne m 0 with rfl | hne
      · decide
      · have := (Nat.log2_lt hne).mpr hlt
        omega
    have hlow : 2 ^ 52 ≤ m → 52 ≤ m.log2 := fun hle => (Nat.le_log2 (by omega)).mpr hle
    have hk : e + (0 : Nat) = max (m.log2 + e - 52) (-1074) := by omega
    obtain ⟨hmantissa, hexponent⟩ := shiftToTargetExponent_eq_of_add .exact hk
    refine ⟨m, e, by simpa using hmantissa, by simpa using hexponent, ⟨hlt, he, hleading⟩, rfl⟩
  · have hk : e + (1 : Nat) = max ((2 ^ 53 : Nat).log2 + e - 52) (-1074) := by
      rw [Nat.log2_two_pow]
      omega
    obtain ⟨hmantissa, hexponent⟩ := shiftToTargetExponent_eq_of_add .exact hk
    refine ⟨2 ^ 52, e + 1, hmantissa.trans (by decide), hexponent,
      ⟨by decide, by omega, .inl (le_refl _)⟩, ?_⟩
    rw [zpow_add₀ two_ne_zero]
    push_cast
    ring

end Shifting

section Rounding

variable {s : Sign} {m : Nat} {e : Int}

/-- One unit in the last place is at most a given part of the whole, or the smallest of all. -/
theorem succ_mul_le_inflate {q : Nat} {t : Int} (hleading : 2 ^ 52 ≤ q ∨ t = -1074) :
    ((q : ℝ) + 1) * 2 ^ t ≤ inflate (q * 2 ^ t) := by
  have htwo : (0 : ℝ) < 2 ^ t := by positivity
  have hsmall := smallest_pos
  have hepsilon := epsilon_pos
  unfold inflate
  rcases hleading with hlow | rfl
  · have hone : 1 ≤ (q : ℝ) * epsilon := by
      rw [epsilon_eq, zpow_neg, ← div_eq_mul_inv, le_div_iff₀ (by positivity), one_mul]
      exact_mod_cast hlow
    nlinarith
  · have hq : (0 : ℝ) ≤ q := Nat.cast_nonneg q
    rw [← smallest_eq] at *
    nlinarith [mul_nonneg (mul_nonneg hq hsmall.le) hepsilon.le]

/-- A larger bound is larger after one rounding. -/
theorem inflate_le_inflate {v w : ℝ} (h : v ≤ w) : inflate v ≤ inflate w := by
  have hepsilon := epsilon_pos
  unfold inflate
  gcongr

/-- Rounding a result whose digits reach down to the last place or further. -/
theorem roundsTo_roundWithAccuracy {accuracy : Accuracy}
    (he : e ≤ max (m.log2 + e - 52) (-1074)) :
    RoundsTo s (m * 2 ^ e)
      (Float.Model.pack (roundWithAccuracy .binary64 s m e accuracy)).unpack := by
  obtain ⟨k, hk⟩ : ∃ k : Nat, e + k = max ((m.log2 : Int) + e - 52) (-1074) :=
    ⟨(max ((m.log2 : Int) + e - 52) (-1074) - e).toNat, by omega⟩
  obtain ⟨hmantissa, hexponent⟩ := shiftToTargetExponent_eq_of_add accuracy hk
  obtain ⟨hlt, hleading⟩ := div_bounds hk
  have hrounded := roundedMantissa_bounds (shiftToTargetExponent .binary64 m e accuracy).1
  rw [hmantissa] at hrounded
  unfold roundWithAccuracy
  generalize (shiftToTargetExponent .binary64 m e accuracy) = first at *
  obtain ⟨em, t⟩ := first
  dsimp only at *
  obtain ⟨m', e', hm', he', hcanonical, hvalue⟩ := isCanonical_shiftToTargetExponent
    (m := em.roundedMantissa) (e := t) (by omega) (by omega) (by omega)
  simp only [hm', he']
  -- The digits that are dropped make the result smaller, and rounding adds one in the last place at
  -- most.
  have hle : (m' : ℝ) * 2 ^ e' ≤ inflate (m * 2 ^ e) := by
    have hdropped : ((m / 2 ^ k : Nat) : ℝ) * 2 ^ t ≤ m * 2 ^ e := by
      have hmul : ((m / 2 ^ k : Nat) : ℝ) * 2 ^ k ≤ m := by
        exact_mod_cast Nat.div_mul_le_self m (2 ^ k)
      rw [hexponent, zpow_add₀ two_ne_zero, mul_comm ((2 : ℝ) ^ e), ← mul_assoc]
      exact mul_le_mul_of_nonneg_right (by exact_mod_cast hmul) (by positivity)
    calc (m' : ℝ) * 2 ^ e'
      _ = em.roundedMantissa * 2 ^ t := hvalue
      _ ≤ (((m / 2 ^ k : Nat) : ℝ) + 1) * 2 ^ t := by
        gcongr
        exact_mod_cast hrounded.2
      _ ≤ inflate (((m / 2 ^ k : Nat) : ℝ) * 2 ^ t) := succ_mul_le_inflate (by omega)
      _ ≤ inflate (m * 2 ^ e) := inflate_le_inflate hdropped
  split
  · rw [(Packs.zero s).unpack_pack]
    exact .zero
  · exact hcanonical.roundsTo hle

/-- Rounding any result. -/
theorem roundsTo_round (hpos : 0 < m) :
    RoundsTo s (m * 2 ^ e) (Float.Model.pack (UnpackedFloat.round .binary64 s m e)).unpack := by
  obtain ⟨k, hk⟩ : ∃ k : Nat, (e - max ((m.log2 : Int) + 1 + e - 53) (-1074)).toNat = k := ⟨_, rfl⟩
  have hlog : (m * 2 ^ k).log2 = m.log2 + k := log2_mul_two_pow hpos k
  have hvalue : ((m * 2 ^ k : Nat) : ℝ) * 2 ^ (e - k) = m * 2 ^ e := by
    push_cast
    rw [zpow_sub₀ two_ne_zero, zpow_natCast]
    field_simp
  unfold UnpackedFloat.round decreaseExponent
  rw [targetExponent_eq, totalExponent]
  simp only [hk, Nat.shiftLeft_eq]
  rw [← hvalue]
  exact roundsTo_roundWithAccuracy (by rw [hlog]; omega)

end Rounding

end ErrorBudget.Double
