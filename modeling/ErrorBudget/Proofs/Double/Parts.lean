import ErrorBudget.Double
import ErrorBudget.Proofs.Double.Packing

/-!
# Parts of floating-point numbers

A floating-point number is determined by its parts (`parts_injective`): whether it is finite, its
sign, and its mantissa and exponent. Comparisons and signs are read off the parts, and so is the
exact form from which decimal texts are computed (`ofFloat_of_parts`).
-/

set_option autoImplicit false

namespace ErrorBudget.Double

open Float.Model Float.Model.UnpackedFloat

/-- The parts of a floating-point number. -/
def parts (x : Float) : UnpackedFloat :=
  x.toModel.unpack

/-- The parts of a number pack into its bits. -/
theorem packs_parts (x : Float) : Packs (parts x) x.toBits.toNat :=
  packs_unpack x.toModel

/-- A number is determined by its parts. -/
theorem parts_injective {x y : Float} (h : parts x = parts y) : x = y := by
  have hbits := (unpack_inj_of_valid x.toModel.valid y.toModel.valid).mp h
  exact Float.toBits_inj.mp (UInt64.toBitVec_inj.mp hbits)

section Signs

variable {u : UnpackedFloat} {n : Nat}

/-- What can be packed can be packed with the other sign. -/
theorem Packs.exists_neg (h : Packs u n) : ∃ k, Packs u.neg k := by
  cases h with
  | notANumber => exact ⟨_, .notANumber⟩
  | infinity s => exact ⟨_, .infinity (-s)⟩
  | zero s => exact ⟨_, .zero (-s)⟩
  | subnormal s hpos hm => exact ⟨_, .subnormal (-s) hpos hm⟩
  | normal s hpos hlow hm hfield hfinite => exact ⟨_, .normal (-s) hpos hlow hm hfield hfinite⟩

/-- What can be packed can be packed without its sign. -/
theorem Packs.exists_abs (h : Packs u n) : ∃ k, Packs u.abs k := by
  cases h with
  | notANumber => exact ⟨_, .notANumber⟩
  | infinity s => exact ⟨_, .infinity .positive⟩
  | zero s => exact ⟨_, .zero .positive⟩
  | subnormal s hpos hm => exact ⟨_, .subnormal .positive hpos hm⟩
  | normal s hpos hlow hm hfield hfinite =>
    exact ⟨_, .normal .positive hpos hlow hm hfield hfinite⟩

/-- The parts of a negative have the other sign. -/
theorem parts_neg (x : Float) : parts (-x) = (parts x).neg := by
  obtain ⟨n, hn⟩ := (packs_parts x).exists_neg
  exact hn.unpack_pack

/-- The parts of an absolute value have no minus. -/
theorem parts_abs (x : Float) : parts x.abs = (parts x).abs := by
  obtain ⟨n, hn⟩ := (packs_parts x).exists_abs
  exact hn.unpack_pack

/-- Whether a number is undefined can be told by its parts. -/
theorem isNaN_eq (x : Float) : x.isNaN = (parts x).isNaN := by rfl

/-- Whether a number is finite can be told by its parts. -/
theorem isFinite_eq (x : Float) : x.isFinite = (parts x).isFinite := by rfl

/-- A negative is undefined exactly if the number is. -/
theorem isNaN_neg (x : Float) : (-x).isNaN = x.isNaN := by
  rw [isNaN_eq, isNaN_eq, parts_neg]
  cases parts x <;> rfl

/-- An absolute value is undefined exactly if the number is. -/
theorem isNaN_abs (x : Float) : x.abs.isNaN = x.isNaN := by
  rw [isNaN_eq, isNaN_eq, parts_abs]
  cases parts x <;> rfl

/-- An absolute value is finite exactly if the number is. -/
theorem isFinite_abs (x : Float) : x.abs.isFinite = x.isFinite := by
  rw [isFinite_eq, isFinite_eq, parts_abs]
  cases parts x <;> rfl

/-- An absolute value is its own absolute value. -/
theorem abs_abs (x : Float) : x.abs.abs = x.abs := by
  apply parts_injective
  rw [parts_abs, parts_abs]
  cases parts x <;> rfl

end Signs

section Comparisons

/-- The parts of zero. -/
theorem parts_zero : parts 0 = .zero .positive := by rfl

/-- The parts of infinity, which is the quotient of one by zero. -/
theorem parts_infinity : parts (1 / 0) = .infinity .positive := by rfl

/-- The parts of one. -/
theorem parts_one : parts 1 = .finite .positive (2 ^ 52) (-52) (by decide) := by rfl

/-- The parts of minus one. -/
theorem parts_neg_one : parts (-1) = .finite .negative (2 ^ 52) (-52) (by decide) := by rfl

/-- Whether a number is below zero can be told by its parts. -/
theorem lt_zero_iff (x : Float) : x < 0 ↔ (parts x).lt (.zero .positive) = true :=
  decide_eq_true_iff

/-- Whether a number is at least zero can be told by its parts. -/
theorem zero_le_iff (x : Float) :
    (0 : Float) ≤ x ↔ UnpackedFloat.le (.zero .positive) (parts x) = true :=
  decide_eq_true_iff

/-- A number that is at least zero is not below zero. -/
theorem not_lt_zero_of_le {x : Float} (h : 0 ≤ x) : ¬x < 0 := by
  rw [zero_le_iff] at h
  rw [lt_zero_iff]
  rcases hx : parts x with (_ | _) | _ | (_ | _) | ⟨_ | _, m, e, hm⟩ <;>
    simp [hx, UnpackedFloat.le, UnpackedFloat.lt, UnpackedFloat.compare] at h ⊢

/-- Only minus one equals minus one. -/
theorem eq_neg_one_of_beq {x : Float} (h : (x == -1) = true) : x = -1 := by
  have hne (s : Sign) : parts (-1) ≠ .zero s := by
    rw [parts_neg_one]
    exact UnpackedFloat.noConfusion
  obtain ⟨-, -, heq | ⟨-, hzero⟩ | ⟨-, hzero⟩⟩ := Float.beq_iff_ne_nan_and_eq.mp h
  · exact heq
  · exact absurd (congrArg parts hzero) (hne .negative)
  · exact absurd (congrArg parts hzero) (hne .positive)

end Comparisons

section Exact

/-- The exact form of a number whose parts are a sign, a mantissa and an exponent. -/
def exactOf (s : Sign) (m : Nat) (e : Int) : Binary where
  negative := s == .negative
  mantissa := m
  exponent := e
  narrowBelow := m = 2 ^ 52 && -1074 < e

/-- The exact form of a number, computed from the fields of its bits. -/
theorem ofFloat_of_bits {x : Float} {s : Sign} {field fraction : Nat}
    (hbits : x.toBits.toNat = signBit s + field * 2 ^ 52 + fraction) (hfield : field < 2 ^ 11)
    (hfraction : fraction < 2 ^ 52) : Binary.ofFloat x =
      { negative := s == .negative
        mantissa := if field = 0 then fraction else 2 ^ 52 + fraction
        exponent := (max field 1 : Nat) - 1075
        narrowBelow := fraction = 0 && 1 < field } := by
  have hlow : x.toBits.toNat % Nat.pow 2 52 = fraction := by
    have := signBit_cases s
    simp only [Nat.pow_eq]
    omega
  have hmiddle : x.toBits.toNat / Nat.pow 2 52 % 2048 = field := by
    have := signBit_cases s
    simp only [Nat.pow_eq]
    omega
  have hhigh : decide (Nat.pow 2 63 ≤ x.toBits.toNat) = (s == .negative) := by
    simp only [Nat.pow_eq]
    cases s <;> simp only [signBit] at hbits
    · exact decide_eq_true (by omega)
    · exact decide_eq_false (by omega)
  unfold Binary.ofFloat
  simp only [hlow, hmiddle, hhigh, Nat.pow_eq]

/-- The exact form of a finite number, computed from its parts. -/
theorem ofFloat_of_finite {x : Float} {s : Sign} {m : Nat} {e : Int} {hpos : 0 < m}
    (h : parts x = .finite s m e hpos) : Binary.ofFloat x = exactOf s m e := by
  have hpacks := packs_parts x
  rw [h] at hpacks
  generalize hbits : x.toBits.toNat = n at hpacks
  cases hpacks with
  | @subnormal _ _ _ hm =>
    have hfraction : x.toBits.toNat = signBit s + 0 * 2 ^ 52 + m := by omega
    rw [ofFloat_of_bits hfraction (by decide) hm]
    have hne : decide (m = 2 ^ 52) = false := decide_eq_false (Nat.ne_of_lt hm)
    rw [exactOf, hne]
    simp
  | @normal _ _ field _ hlow hm hfield hfinite =>
    rw [ofFloat_of_bits hbits (by omega) (by omega), exactOf, if_neg (by omega),
      Nat.max_eq_left hfield, Nat.add_sub_cancel' hlow]
    have hwhole : m - 2 ^ 52 = 0 ↔ m = 2 ^ 52 := by omega
    have hhigher : 1 < field ↔ -1074 < (field : Int) - 1075 := by omega
    simp only [hwhole, hhigher]

/-- The exact form of zero. -/
theorem ofFloat_of_zero {x : Float} {s : Sign} (h : parts x = .zero s) :
    Binary.ofFloat x = exactOf s 0 (-1074) := by
  have hpacks := packs_parts x
  rw [h] at hpacks
  generalize hbits : x.toBits.toNat = n at hpacks
  cases hpacks
  have hfraction : x.toBits.toNat = signBit s + 0 * 2 ^ 52 + 0 := by omega
  rw [ofFloat_of_bits hfraction (by decide) (by decide)]
  rfl

end Exact

end ErrorBudget.Double
