import ErrorBudget.Decimal.Binary
import Mathlib

/-!
# Bits of floating-point numbers

`Packs` says which bits stand for a number in binary64: a sign bit, eleven bits for the exponent and
52 for the mantissa, whose leading bit is left out. Bits are unpacked to the number that they stand
for (`packs_unpack`), and a number that bits stand for is packed into these (`Packs.toNat_pack`). As
bits stand for one number only, packing loses nothing of it (`Packs.unpack_pack`).
-/

set_option autoImplicit false

namespace ErrorBudget.Double

open Float.Model Float.Model.UnpackedFloat

/-- The sign of a number as part of its bits. -/
def signBit : Sign → Nat
  | .negative => 2 ^ 63
  | .positive => 0

/-- The sign of the number that bits stand for. -/
def signOf (b : BitVec 64) : Sign :=
  Sign.ofBitVec (@unpackSign .binary64 b)

/-- The bits of a number, read as a natural number. -/
inductive Packs : UnpackedFloat → Nat → Prop
  | notANumber : Packs .notANumber (2047 * 2 ^ 52 + 2 ^ 51)
  | infinity (s : Sign) : Packs (.infinity s) (signBit s + 2047 * 2 ^ 52)
  | zero (s : Sign) : Packs (.zero s) (signBit s)
  | subnormal (s : Sign) {m : Nat} (hpos : 0 < m) (hm : m < 2 ^ 52) :
      Packs (.finite s m (-1074) hpos) (signBit s + m)
  | normal (s : Sign) {m field : Nat} (hpos : 0 < m) (hlow : 2 ^ 52 ≤ m) (hm : m < 2 ^ 53)
      (hfield : 0 < field) (hfinite : field < 2047) :
      Packs (.finite s m (field - 1075) hpos) (signBit s + field * 2 ^ 52 + (m - 2 ^ 52))

section Components

/-- The bits of a number are its sign, its exponent field and its fraction. -/
theorem toNat_packComponents (s : Sign) (field : BitVec 11) (m : BitVec 52) :
    (packComponents .binary64 s field m).toNat = signBit s + field.toNat * 2 ^ 52 + m.toNat := by
  have hfield := field.isLt
  have hm := m.isLt
  simp only [packComponents, BitVec.toNat_append]
  rw [← Nat.shiftLeft_add_eq_or_of_lt hm, ← Nat.shiftLeft_add_eq_or_of_lt hfield,
    Nat.shiftLeft_eq, Nat.shiftLeft_eq]
  cases s <;> simp only [Sign.toBitVec, signBit, BitVec.toNat_ofNat] <;> omega

variable (b : BitVec 64)

/-- The fraction is the remainder by `2 ^ 52`. -/
theorem toNat_unpackMantissa :
    (@unpackMantissa .binary64 b).toNat = b.toNat % 2 ^ 52 := by
  simp [unpackMantissa, BitVec.extractLsb]

/-- The exponent field is eleven bits above the fraction. -/
theorem toNat_unpackExponent :
    (@unpackExponent .binary64 b).toNat = b.toNat / 2 ^ 52 % 2 ^ 11 := by
  simp [unpackExponent, BitVec.extractLsb, Nat.shiftRight_eq_div_pow]

/-- The sign is the highest bit. -/
theorem signBit_signOf :
    signBit (signOf b) = b.toNat / 2 ^ 63 * 2 ^ 63 := by
  have hb := b.isLt
  have hsign : (@unpackSign .binary64 b).toNat = b.toNat / 2 ^ 63 := by
    simp [unpackSign, BitVec.extractLsb, Nat.shiftRight_eq_div_pow]
    omega
  unfold signOf Sign.ofBitVec
  split
  · rename_i hzero
    have hnat : b.toNat / 2 ^ 63 = 0 := by
      rw [← hsign, hzero]
      rfl
    rw [hnat, Nat.zero_mul]
    rfl
  · rename_i hone
    have hnat : b.toNat / 2 ^ 63 ≠ 0 := by
      rw [← hsign]
      exact fun h => hone (BitVec.eq_of_toNat_eq h)
    simp only [signBit]
    omega

end Components

/-- Bits stand for the number to which they are unpacked. -/
theorem packs_unpack (x : Float.Model) : Packs x.unpack x.toBits.toNat := by
  obtain ⟨⟨b⟩, hvalid⟩ := x
  have hb := b.isLt
  have hsign := signBit_signOf b
  have hexponent := toNat_unpackExponent b
  have hmantissa := toNat_unpackMantissa b
  have hmantissaBound : b.toNat % 2 ^ 52 < 2 ^ 52 := Nat.mod_lt _ (by decide)
  change Packs (UnpackedFloat.unpack .binary64 b) b.toNat
  unfold UnpackedFloat.unpack
  dsimp only
  split
  · -- All bits of the exponent are set: an infinity, or the one pattern that stands for no number.
    rename_i hones
    have hfield : b.toNat / 2 ^ 52 % 2 ^ 11 = 2047 := by rw [← hexponent, hones]; rfl
    split
    · rename_i hzero
      have hrest : b.toNat % 2 ^ 52 = 0 := by rw [← hmantissa, hzero]; rfl
      have hbits : b.toNat =
          signBit (signOf b) + 2047 * 2 ^ 52 := by
        omega
      rw [hbits]
      exact .infinity _
    · rename_i hnonzero
      have hnan : b = packedNaN .binary64 := hvalid.eq_packedNaN hones hnonzero
      rw [hnan]
      exact .notANumber
  · rename_i hnotOnes
    have hfinite : b.toNat / 2 ^ 52 % 2 ^ 11 ≠ 2047 := by
      rw [← hexponent]
      exact fun h => hnotOnes (BitVec.eq_of_toNat_eq h)
    split
    · -- No bit of the exponent is set: a zero, or a number without a leading bit.
      rename_i hzeroField
      have hfield : b.toNat / 2 ^ 52 % 2 ^ 11 = 0 := by rw [← hexponent, hzeroField]; rfl
      split
      · rename_i hzero
        have hrest : b.toNat % 2 ^ 52 = 0 := by rw [← hmantissa, hzero]; rfl
        have hbits : b.toNat = signBit (signOf b) := by
          omega
        rw [hbits]
        exact .zero _
      · rename_i hnonzero
        have hpos : 0 < (@unpackMantissa .binary64 b).toNat :=
          Nat.pos_of_ne_zero fun h => hnonzero (BitVec.eq_of_toNat_eq h)
        have hpacks := Packs.subnormal (signOf b) hpos
          (BitVec.isLt _)
        have hbits : signBit (signOf b) +
            (@unpackMantissa .binary64 b).toNat = b.toNat := by
          omega
        rw [hbits] at hpacks
        rw [hexponent, hfield]
        exact hpacks
    · -- Any other number gets back the leading bit of its mantissa.
      rename_i hnonzeroField
      have hfield : b.toNat / 2 ^ 52 % 2 ^ 11 ≠ 0 := by
        rw [← hexponent]
        exact fun h => hnonzeroField (BitVec.eq_of_toNat_eq h)
      have hm : (1#1 ++ @unpackMantissa .binary64 b).toNat = 2 ^ 52 + b.toNat % 2 ^ 52 := by
        rw [BitVec.toNat_append, ← Nat.shiftLeft_add_eq_or_of_lt (BitVec.isLt _), hmantissa]
        rfl
      have hfieldBound := Nat.mod_lt (b.toNat / 2 ^ 52) (show 0 < 2 ^ 11 by decide)
      have hpacks := @Packs.normal (signOf b)
        (1#1 ++ @unpackMantissa .binary64 b).toNat (b.toNat / 2 ^ 52 % 2 ^ 11)
        (by omega) (by omega) (by omega) (by omega) (by omega)
      have hbits : signBit (signOf b) +
          b.toNat / 2 ^ 52 % 2 ^ 11 * 2 ^ 52 +
          ((1#1 ++ @unpackMantissa .binary64 b).toNat - 2 ^ 52) = b.toNat := by
        omega
      rw [hbits] at hpacks
      rw [hexponent]
      exact hpacks

/-- A number that has bits is packed into them. -/
theorem Packs.toNat_pack {u : UnpackedFloat} {n : Nat} (h : Packs u n) :
    (UnpackedFloat.pack .binary64 u).toNat = n := by
  cases h with
  | notANumber => rfl
  | infinity s => cases s <;> rfl
  | zero s => cases s <;> rfl
  | @subnormal s m hpos hm =>
    have hlog : m.log2 < 52 := (Nat.log2_lt (Nat.ne_of_gt hpos)).mpr hm
    unfold UnpackedFloat.pack
    rw [if_neg (by decide), if_neg (by simp only [Format.mantissaBits]; omega),
      toNat_packComponents]
    simp only [BitVec.toNat_ofNat, Nat.mod_eq_of_lt hm]
    omega
  | @normal s m field hpos hlow hm hfield hfinite =>
    have hlog : m.log2 = 52 := by
      have hlower := (Nat.le_log2 (Nat.ne_of_gt hpos)).mpr hlow
      have hupper := (Nat.log2_lt (Nat.ne_of_gt hpos)).mpr hm
      omega
    have hexponent : ((field - 1075 : Int) + Format.binary64.exponentBias + 52).toNat = field := by
      have hbias : Format.binary64.exponentBias = 1023 := by decide
      omega
    unfold UnpackedFloat.pack
    dsimp only
    rw [if_neg (by omega), if_pos (by rw [hlog]; rfl), toNat_packComponents]
    simp only [BitVec.toNat_ofNat]
    omega

/-- The bit of a sign is zero or `2 ^ 63`. -/
theorem signBit_cases (s : Sign) : signBit s = 0 ∨ signBit s = 2 ^ 63 := by
  cases s <;> simp [signBit]

/-- A sign can be told by its bit. -/
theorem signBit_injective {s t : Sign} (h : signBit s = signBit t) : s = t := by
  cases s <;> cases t <;> first | rfl | contradiction

/-- Bits stand for one number only. -/
theorem Packs.unique {u v : UnpackedFloat} {n : Nat} (hu : Packs u n) (hv : Packs v n) :
    u = v := by
  -- The bits of different kinds of numbers lie in different ranges, so only equal kinds are left.
  generalize hn : n = k at hv
  cases hu with
  | notANumber =>
    cases hv with
    | notANumber => rfl
    | infinity t | zero t | subnormal t | normal t =>
      have ht := signBit_cases t
      omega
  | infinity s =>
    have hs := signBit_cases s
    cases hv with
    | notANumber => omega
    | infinity t => rw [signBit_injective (Nat.add_right_cancel hn)]
    | zero t | subnormal t | normal t =>
      have ht := signBit_cases t
      omega
  | zero s =>
    have hs := signBit_cases s
    cases hv with
    | notANumber => omega
    | zero t => rw [signBit_injective hn]
    | infinity t | subnormal t | normal t =>
      have ht := signBit_cases t
      omega
  | @subnormal s m =>
    have hs := signBit_cases s
    cases hv with
    | notANumber => omega
    | @subnormal t m' =>
      have ht := signBit_cases t
      obtain rfl : m = m' := by omega
      rw [signBit_injective (by omega : signBit s = signBit t)]
    | infinity t | zero t | normal t =>
      have ht := signBit_cases t
      omega
  | @normal s m field =>
    have hs := signBit_cases s
    cases hv with
    | notANumber => omega
    | @normal t m' field' =>
      have ht := signBit_cases t
      obtain rfl : field = field' := by omega
      obtain rfl : m = m' := by omega
      rw [signBit_injective (by omega : signBit s = signBit t)]
    | infinity t | zero t | subnormal t =>
      have ht := signBit_cases t
      omega

/-- A number that has bits is unpacked from what it is packed into. -/
theorem Packs.unpack_pack {u : UnpackedFloat} {n : Nat} (h : Packs u n) :
    (Float.Model.pack u).unpack = u := by
  have hbits : (Float.Model.pack u).toBits.toNat = n := h.toNat_pack
  have hpacks := packs_unpack (Float.Model.pack u)
  rw [hbits] at hpacks
  exact hpacks.unique h

end ErrorBudget.Double
