import ErrorBudget.Proofs.Double.Parts

/-!
# Integers as floating-point numbers

A natural number below `2 ^ 53` is read from its decimal digits without rounding
(`parts_ofScientific`), and a floating-point number whose exact form is a small integer is the one
that is read from the integer's digits (`abs_eq_nearestFloat`).
-/

set_option autoImplicit false

namespace ErrorBudget.Double

open Float.Model Float.Model.UnpackedFloat

section Rounding

variable {m k : Nat} {e : Int}

/-- Zeros at the end of a mantissa are shifted out without loss. -/
theorem repeat_shiftRightOne (m k : Nat) :
    Nat.repeat ExtendedMantissa.shiftRightOne k ⟨m * 2 ^ k, false, false⟩ = ⟨m, false, false⟩ := by
  induction k generalizing m with
  | zero => simp [Nat.repeat]
  | succ k ih =>
    have hsplit : m * 2 ^ (k + 1) = 2 * m * 2 ^ k := by
      rw [Nat.pow_succ, Nat.mul_comm 2 m, Nat.mul_assoc, Nat.mul_comm 2]
    rw [hsplit, Nat.repeat, ih (2 * m)]
    simp [ExtendedMantissa.shiftRightOne]

/-- A mantissa of 53 bits determines the exponent, down to the least one. -/
theorem targetExponent_eq (total : Int) :
    Format.binary64.targetExponent total = max (total - 53) (-1074) := by rfl

/-- A factor of two adds one to the binary logarithm. -/
theorem log2_mul_two_pow (hpos : 0 < m) (k : Nat) : (m * 2 ^ k).log2 = m.log2 + k := by
  have hne : m * 2 ^ k ≠ 0 := Nat.ne_of_gt (Nat.mul_pos hpos (Nat.two_pow_pos k))
  rw [Nat.log2_eq_iff hne]
  constructor
  · rw [Nat.pow_add]
    exact Nat.mul_le_mul_right _ (Nat.log2_self_le (Nat.ne_of_gt hpos))
  · rw [Nat.add_right_comm, Nat.pow_add]
    exact Nat.mul_lt_mul_of_pos_right Nat.lt_log2_self (Nat.two_pow_pos k)

/-- A mantissa of 53 digits. -/
theorem log2_eq (hlow : 2 ^ 52 ≤ m) (hm : m < 2 ^ 53) : m.log2 = 52 :=
  (Nat.log2_eq_iff (by omega)).mpr ⟨hlow, hm⟩

/-- A mantissa that was shifted left exactly is shifted back to its 53 bits. -/
theorem shiftToTargetExponent_eq (hlow : 2 ^ 52 ≤ m) (hm : m < 2 ^ 53) (he : -1074 ≤ e) (k : Nat) :
    shiftToTargetExponent .binary64 (m * 2 ^ k) (e - k) .exact = (⟨m, false, false⟩, e) := by
  have htarget : Format.binary64.targetExponent (totalExponent (m * 2 ^ k) (e - k)) = e := by
    rw [targetExponent_eq, totalExponent, log2_mul_two_pow (by omega), log2_eq hlow hm]
    omega
  have hamount : (e - (e - (k : Int))).toNat = k := by omega
  have hexponent : e - (k : Int) + (k : Int) = e := by omega
  unfold shiftToTargetExponent shiftToExponent
  rw [htarget]
  simp only [hamount, hexponent, ExtendedMantissa.ofMantissaAndAccuracy]
  exact congrArg (·, e) (repeat_shiftRightOne m k)

/-- Nothing is rounded if the mantissa is one of 53 bits, shifted left. -/
theorem roundWithAccuracy_eq (s : Sign) (hpos : 0 < m) (hlow : 2 ^ 52 ≤ m) (hm : m < 2 ^ 53)
    (he : -1074 ≤ e) (k : Nat) :
    roundWithAccuracy .binary64 s (m * 2 ^ k) (e - k) .exact = .finite s m e hpos := by
  have hfirst := shiftToTargetExponent_eq hlow hm he k
  have hsecond := shiftToTargetExponent_eq hlow hm he 0
  simp only [Nat.pow_zero, Nat.mul_one, Int.natCast_zero, Int.sub_zero] at hsecond
  have hrounded : (⟨m, false, false⟩ : ExtendedMantissa).roundedMantissa = m := rfl
  unfold roundWithAccuracy
  simp only [hfirst, hrounded, hsecond]
  rw [dif_neg (Nat.ne_of_gt hpos)]

end Rounding

section Reading

variable {n : Nat}

/-- The zeros that are put behind a natural number to fill the mantissa. -/
def padding (n : Nat) : Nat := 52 - n.log2

/-- The exponent of a padded integer is not below the least exponent. -/
theorem neg_padding_ge (n : Nat) : -1074 ≤ -(padding n : Int) := by
  unfold padding
  omega

/-- A padded integer is positive. -/
theorem padded_pos (hpos : 0 < n) : 0 < n * 2 ^ padding n :=
  Nat.mul_pos hpos (Nat.two_pow_pos _)

/-- An integer below `2 ^ 53` has at most 53 bits. -/
theorem log2_le (hpos : 0 < n) (hn : n < 2 ^ 53) : n.log2 ≤ 52 :=
  Nat.lt_succ_iff.mp ((Nat.log2_lt (Nat.ne_of_gt hpos)).mpr hn)

/-- A padded integer has exactly 53 bits. -/
theorem padded_bounds (hpos : 0 < n) (hn : n < 2 ^ 53) :
    2 ^ 52 ≤ n * 2 ^ padding n ∧ n * 2 ^ padding n < 2 ^ 53 := by
  have hlog := log2_le hpos hn
  have hlower := Nat.log2_self_le (Nat.ne_of_gt hpos)
  have hupper := @Nat.lt_log2_self n
  have hwidth : n.log2 + padding n = 52 := by
    unfold padding
    omega
  constructor
  · rw [← hwidth, Nat.pow_add]
    exact Nat.mul_le_mul_right _ hlower
  · rw [show 53 = n.log2 + 1 + padding n by omega, Nat.pow_add]
    exact Nat.mul_lt_mul_of_pos_right hupper (Nat.two_pow_pos _)

/-- The number nearest to an integer below `2 ^ 53` is the integer, with its mantissa padded. -/
theorem ofNat_eq (hpos : 0 < n) (hn : n < 2 ^ 53) :
    UnpackedFloat.ofNat .binary64 n =
      .finite .positive (n * 2 ^ padding n) (-(padding n : Int)) (padded_pos hpos) := by
  have hlog := log2_le hpos hn
  have hcompare : compare (n : Int) 0 = .gt := by
    rw [Int.compare_eq_gt]
    omega
  have htarget : Format.binary64.targetExponent (totalExponent n 0) = -(padding n : Int) := by
    rw [targetExponent_eq, totalExponent, padding]
    omega
  have hround := roundWithAccuracy_eq .positive (padded_pos hpos) (padded_bounds hpos hn).1
    (padded_bounds hpos hn).2 (neg_padding_ge n) 0
  unfold UnpackedFloat.ofNat UnpackedFloat.ofInt UnpackedFloat.normalize
  rw [hcompare]
  dsimp only
  unfold UnpackedFloat.round decreaseExponent
  rw [Int.toNat_natCast, htarget]
  simp only [Int.zero_sub, Int.neg_neg, Int.toNat_natCast, Nat.shiftLeft_eq]
  simpa only [Nat.pow_zero, Nat.mul_one, Int.natCast_zero, Int.sub_zero] using hround

/-- A padded integer can be packed. -/
theorem packs_padded (hpos : 0 < n) (hn : n < 2 ^ 53) :
    ∃ k, Packs (.finite .positive (n * 2 ^ padding n) (-(padding n : Int)) (padded_pos hpos))
      k := by
  have hpacks := @Packs.normal .positive (n * 2 ^ padding n) (1075 - padding n) (padded_pos hpos)
    (padded_bounds hpos hn).1 (padded_bounds hpos hn).2 (by unfold padding; omega)
    (by unfold padding; omega)
  have hexponent : ((1075 - padding n : Nat) : Int) - 1075 = -(padding n : Int) := by
    unfold padding
    omega
  rw [hexponent] at hpacks
  exact ⟨_, hpacks⟩

/-- A natural number below `2 ^ 53` is read without rounding. -/
theorem parts_ofScientific (hpos : 0 < n) (hn : n < 2 ^ 53) :
    parts (Float.ofScientific n false 0) =
      .finite .positive (n * 2 ^ padding n) (-(padding n : Int)) (padded_pos hpos) := by
  obtain ⟨k, hpacks⟩ := packs_padded hpos hn
  have hnat : n.toUInt64.toNat = n :=
    UInt64.toNat_ofNat_of_lt' (Nat.lt_trans hn (by decide))
  have hfactor : parts n.toUInt64.toFloat =
      .finite .positive (n * 2 ^ padding n) (-(padding n : Int)) (padded_pos hpos) := by
    change (Float.Model.pack (UnpackedFloat.ofNat .binary64 n.toUInt64.toNat)).unpack = _
    rw [hnat, ofNat_eq hpos hn]
    exact hpacks.unpack_pack
  have hone : parts (Float.ofBits 0x3FF0000000000000) =
      .finite .positive (2 ^ 52) (-52) (by decide) := by rfl
  have hproduct : Float.ofScientific n false 0 =
      n.toUInt64.toFloat * Float.ofBits 0x3FF0000000000000 := by
    unfold Float.ofScientific
    rw [dif_pos ⟨hn, by decide⟩]
    rfl
  rw [hproduct]
  change (Float.Model.pack (UnpackedFloat.mul .binary64 (parts n.toUInt64.toFloat)
    (parts (Float.ofBits 0x3FF0000000000000)))).unpack = _
  have hmul : UnpackedFloat.mul .binary64
      (.finite .positive (n * 2 ^ padding n) (-(padding n : Int)) (padded_pos hpos))
      (.finite .positive (2 ^ 52) (-52) (by decide)) =
      .finite .positive (n * 2 ^ padding n) (-(padding n : Int)) (padded_pos hpos) :=
    roundWithAccuracy_eq .positive (padded_pos hpos) (padded_bounds hpos hn).1
      (padded_bounds hpos hn).2 (neg_padding_ge n) 52
  rw [hfactor, hone, hmul]
  exact hpacks.unpack_pack

/-- The text of an integer below `2 ^ 53` is read as this integer. -/
theorem nearestFloat_eq (hpos : 0 < n) (hn : n < 2 ^ 53) :
    nearestFloat n 0 = Float.ofScientific n false 0 := by
  have hdigits : digitCount n ≤ 16 := by
    refine (Nat.length_toDigits_le_iff (by decide) (by decide)).mpr ?_
    exact Nat.lt_trans hn (by decide)
  have hmagnitude : (digitCount n : Int) + 0 ≤ 16 := by omega
  unfold nearestFloat overflowExponent underflowExponent
  dsimp only
  rw [if_neg (Nat.ne_of_gt hpos), if_neg (by omega), if_neg (by omega)]
  rfl

end Reading

section Exact

variable {n m : Nat} {e : Int} {s : Sign} {k : Int}

/-- What the exact form of an integer says about its mantissa and exponent. -/
theorem integer?_exactOf (h : (exactOf s m e).integer? = some k) :
    m * 2 ^ e.toNat = k.natAbs * 2 ^ (-e).toNat := by
  unfold Binary.integer? twoPower exactOf at h
  simp only [Nat.pow_eq] at h
  split at h
  · rename_i hmod
    have hk := Option.some.inj h
    have habs : m * 2 ^ e.toNat / 2 ^ (-e).toNat = k.natAbs := by
      rw [← hk]
      split <;> simp only [Int.natAbs_neg, Int.natAbs_natCast]
    have hdvd : 2 ^ (-e).toNat ∣ m * 2 ^ e.toNat :=
      Nat.dvd_mul_right_of_dvd (Nat.dvd_of_mod_eq_zero hmod) _
    rw [← habs, Nat.div_mul_cancel hdvd]
  · contradiction

/-- The padding is the only shift to 53 bits. -/
theorem padding_eq {j : Nat} (hlow : 2 ^ 52 ≤ n * 2 ^ j) (hm : n * 2 ^ j < 2 ^ 53) :
    padding n = j := by
  have hpos : 0 < n := by
    rcases Nat.eq_zero_or_pos n with rfl | hpos
    · simp at hlow
    · exact hpos
  have hlog := log2_mul_two_pow hpos j
  rw [log2_eq hlow hm] at hlog
  unfold padding
  omega

/-- Bits that stand for an integer of few digits stand for the number read from the digits. -/
theorem Packs.parts_eq {hpos : 0 < m} {bits : Nat} (h : Packs (.finite s m e hpos) bits)
    (hvalue : m * 2 ^ e.toNat = n * 2 ^ (-e).toNat) (hn : n < 2 ^ 53) :
    .finite .positive m e hpos = parts (nearestFloat n 0) := by
  have hne : n ≠ 0 := by
    rintro rfl
    have hproduct := Nat.mul_pos hpos (Nat.two_pow_pos e.toNat)
    omega
  cases h with
  | @subnormal _ _ _ hm =>
    -- All these numbers lie below one.
    obtain ⟨j, hj, hwide⟩ : ∃ j, (-(-1074 : Int)).toNat = j ∧ 52 ≤ j := ⟨_, rfl, by decide⟩
    have hlarge : 2 ^ 52 ≤ n * 2 ^ j :=
      Nat.le_trans (Nat.pow_le_pow_right (by decide) hwide)
        (Nat.le_mul_of_pos_left _ (Nat.pos_of_ne_zero hne))
    have hsmall : m * 2 ^ 0 = n * 2 ^ j := by
      rw [← hj]
      exact hvalue
    omega
  | @normal _ _ field _ hlow hm hfield hfinite =>
    by_cases hexponent : 0 < (field : Int) - 1075
    · -- From here on numbers are too large.
      have hzero : (-((field : Int) - 1075)).toNat = 0 := by omega
      have htwo : 2 ^ 1 ≤ 2 ^ ((field : Int) - 1075).toNat :=
        Nat.pow_le_pow_right (by decide) (by omega)
      have hlarge := Nat.mul_le_mul hlow htwo
      rw [hzero] at hvalue
      omega
    · have hzero : ((field : Int) - 1075).toNat = 0 := by omega
      obtain ⟨j, hj⟩ : ∃ j : Nat, (field : Int) - 1075 = -(j : Int) := ⟨1075 - field, by omega⟩
      simp only [hj, Int.neg_neg, Int.toNat_natCast] at hvalue ⊢
      have hm' : m = n * 2 ^ j := by
        rw [← hvalue]
        simp
      subst hm'
      have hpadding := padding_eq hlow hm
      rw [nearestFloat_eq (Nat.pos_of_ne_zero hne) hn,
        parts_ofScientific (Nat.pos_of_ne_zero hne) hn]
      simp only [hpadding]

/-- A number whose exact form is an integer of few digits is read from the digits of the integer. -/
theorem abs_eq_nearestFloat {x : Float} (hfinite : x.isFinite = true)
    (hk : (Binary.ofFloat x).integer? = some k) (hbound : k.natAbs < 2 ^ 53) :
    x.abs = nearestFloat k.natAbs 0 := by
  have hparts : (parts x).isFinite = true := hfinite
  have hpacks := packs_parts x
  apply parts_injective
  rw [parts_abs]
  cases hx : parts x with
  | infinity s => simp [hx, UnpackedFloat.isFinite] at hparts
  | notANumber => simp [hx, UnpackedFloat.isFinite] at hparts
  | zero s =>
    rw [ofFloat_of_zero hx] at hk
    have hvalue := (integer?_exactOf hk).symm
    rw [Nat.zero_mul, Nat.mul_eq_zero] at hvalue
    rw [hvalue.resolve_right (Nat.ne_of_gt (Nat.two_pow_pos _))]
    exact parts_zero.symm
  | finite s m e hpos =>
    rw [ofFloat_of_finite hx] at hk
    rw [hx] at hpacks
    exact hpacks.parts_eq (integer?_exactOf hk) hbound

end Exact

end ErrorBudget.Double
