import ErrorBudget.Expr.Printer
import ErrorBudget.Proofs.Double.Integers
import ErrorBudget.Proofs.Printing.Spelling

/-!
# Texts that spell numbers

The text of a literal is read as the literal again. A small integer is written with its digits,
which is exact; that other numbers read back from their shortest digits is taken as given
(`IsWritable`). A number below zero is written as the number above zero with a sign in front
(`printNumber_of_neg`), so only the texts without a sign have to be looked at.
-/

set_option autoImplicit false

namespace ErrorBudget

namespace Literal

/-- The digits of a natural number. -/
def ofNat (n : Nat) : Literal :=
  ⟨Nat.toDigits 10 n, none, none⟩

/-- The literal of a natural number has no exponent. -/
theorem isPlain_ofNat (n : Nat) : (ofNat n).IsPlain where
  whole := List.all_eq_true.mpr fun _ hc => Nat.isDigit_of_mem_toDigits (by decide) (by decide) hc
  fraction := rfl
  exponent := rfl

/-- The literal of a natural number consists of its digits. -/
theorem chars_ofNat (n : Nat) : (ofNat n).chars = (toString n).toList := by
  simp [ofNat, chars, fractionChars]

/-- The literal of a natural number has this value. -/
theorem value?_ofNat (n : Nat) : (ofNat n).value? = some (n, 0) := by
  have hdigits : digitsValue (Nat.toDigits 10 n) = n := by
    rw [digitsValue, ← Nat.ofDigitChars_eq_foldl, Nat.ofDigitChars_ten_toDigits]
  simp [ofNat, value?, mantissa, Nat.toDigits_ne_nil, hdigits]

end Literal

namespace Double

open Float.Model Float.Model.UnpackedFloat

section Exact

variable {s : Sign} {m : Nat} {e : Int} {k : Int}

/-- A number that is not zero is not the integer zero. -/
theorem integer?_ne_zero (hm : 0 < m) (h : (exactOf s m e).integer? = some k) : k ≠ 0 := by
  rintro rfl
  have hvalue := integer?_exactOf h
  have hpos : 0 < m * 2 ^ e.toNat := Nat.mul_pos hm (Nat.two_pow_pos _)
  simp only [Int.natAbs_zero, Nat.zero_mul] at hvalue
  omega

/-- When a positive number is an integer, and which. -/
theorem integer?_positive (m : Nat) (e : Int) : (exactOf .positive m e).integer? =
    if m % (twoPower e).2 = 0 then some ((m * (twoPower e).1 / (twoPower e).2 : Nat) : Int)
    else none := by
  rfl

/-- A positive number is no integer below zero. -/
theorem integer?_nonneg (h : (exactOf .positive m e).integer? = some k) : 0 ≤ k := by
  rw [integer?_positive] at h
  split at h
  · obtain rfl := Option.some.inj h
    exact Int.natCast_nonneg _
  · contradiction

/-- A negative number is the negated integer. -/
theorem integer?_negative (m : Nat) (e : Int) :
    (exactOf .negative m e).integer? = (exactOf .positive m e).integer?.map (- ·) := by
  have hdefinition : (exactOf .negative m e).integer? =
      if m % (twoPower e).2 = 0 then some (-((m * (twoPower e).1 / (twoPower e).2 : Nat) : Int))
      else none := rfl
  rw [hdefinition, integer?_positive]
  split <;> rfl

/-- The text of a negative number has a minus sign in front. -/
theorem plain_negative (m : Nat) (e : Int) :
    (exactOf .negative m e).plain = "-" ++ (exactOf .positive m e).plain := by
  have hsign : (exactOf .positive m e).plain =
      "" ++ if m = 0 then "0" else (exactOf .negative m e).shortest.positional := rfl
  rw [hsign, String.empty_append]
  rfl

end Exact

section Signs

variable {x : Float}

/-- The parts of the negative zero. -/
theorem parts_neg_zero : parts (-0) = .zero .negative := by rfl

/-- The sign of a number: it is below zero and the negative of its magnitude, or it is its own
magnitude, or it is the other zero. -/
theorem sign_cases (hx : x.isNaN = false) :
    x < 0 ∧ x = -x.abs ∨ ¬x < 0 ∧ (x = x.abs ∨ x = -0) := by
  have habs : parts x.abs = (parts x).abs := parts_abs x
  have hneg : parts (-x.abs) = (parts x).abs.neg := by rw [parts_neg, habs]
  cases hparts : parts x with
  | notANumber =>
    rw [isNaN_eq, hparts] at hx
    contradiction
  | infinity s =>
    rw [lt_zero_iff]
    rw [hparts] at habs hneg ⊢
    cases s with
    | positive => exact .inr ⟨by decide, .inl (parts_injective (by rw [hparts, habs]; rfl))⟩
    | negative => exact .inl ⟨by decide, parts_injective (by rw [hparts, hneg]; rfl)⟩
  | zero s =>
    rw [lt_zero_iff]
    rw [hparts] at habs ⊢
    cases s with
    | positive => exact .inr ⟨by decide, .inl (parts_injective (by rw [hparts, habs]; rfl))⟩
    | negative => exact .inr ⟨by decide, .inr (parts_injective (by rw [hparts, parts_neg_zero]))⟩
  | finite s m e hpos =>
    rw [lt_zero_iff]
    rw [hparts] at habs hneg ⊢
    cases s with
    | positive =>
      have hlt : ¬UnpackedFloat.lt (.finite .positive m e hpos) (.zero .positive) = true := by
        simp [UnpackedFloat.lt, UnpackedFloat.compare]
      exact .inr ⟨hlt, .inl (parts_injective (by rw [hparts, habs]; rfl))⟩
    | negative =>
      have hlt : UnpackedFloat.lt (.finite .negative m e hpos) (.zero .positive) = true := by
        simp [UnpackedFloat.lt, UnpackedFloat.compare]
      exact .inl ⟨hlt, parts_injective (by rw [hparts, hneg]; rfl)⟩

/-- An integer that is its own magnitude is not negative. -/
theorem integer?_nonneg_of_abs {k : Int} (habs : x = x.abs) (hfinite : x.isFinite = true)
    (hk : (Binary.ofFloat x).integer? = some k) : 0 ≤ k := by
  have hparts := parts_abs x
  rw [← habs] at hparts
  rw [isFinite_eq] at hfinite
  cases hx : parts x with
  | notANumber | infinity s =>
    rw [hx] at hfinite
    contradiction
  | zero s =>
    rw [hx] at hparts
    obtain rfl : s = .positive := UnpackedFloat.zero.inj hparts
    rw [ofFloat_of_zero hx] at hk
    exact integer?_nonneg hk
  | finite s m e hpos =>
    rw [hx] at hparts
    obtain rfl : s = .positive := (UnpackedFloat.finite.inj hparts).1
    rw [ofFloat_of_finite hx] at hk
    exact integer?_nonneg hk

/-- There is one infinity that is its own magnitude. -/
theorem eq_infinity_of_abs (habs : x = x.abs) (hnumber : x.isNaN = false)
    (hfinite : ¬x.isFinite = true) : x = 1 / 0 := by
  have hparts := parts_abs x
  rw [← habs] at hparts
  rw [isNaN_eq] at hnumber
  rw [isFinite_eq] at hfinite
  apply parts_injective
  rw [parts_infinity]
  cases hx : parts x with
  | notANumber =>
    rw [hx] at hnumber
    contradiction
  | zero s | finite s m e hpos =>
    rw [hx] at hfinite
    exact absurd rfl hfinite
  | infinity s =>
    rw [hx] at hparts
    exact hparts

end Signs

end Double

/-- The text of a number is a literal without an exponent, and is read as the number again. -/
def ReadsBack (x : Float) : Prop :=
  ∃ l : Literal, l.IsPlain ∧ l.chars = (Numeral.plain x).toList ∧
    ∃ m k, l.value? = some (m, k) ∧ Scalar.ofDecimal m k = x

/-- A literal that can be written: it is a number, and if it is finite, its magnitude reads back. -/
structure IsWritable (x : Float) : Prop where
  isNumber : x.isNaN = false
  readsBack : x.isFinite = true → ReadsBack x.abs

/-- The magnitude of a literal that can be written can be written. -/
theorem IsWritable.abs {x : Float} (hx : IsWritable x) : IsWritable x.abs where
  isNumber := (Double.isNaN_abs x).trans hx.isNumber
  readsBack hfinite := by
    rw [Double.abs_abs]
    exact hx.readsBack ((Double.isFinite_abs x).symm.trans hfinite)

namespace Expr

open ErrorBudget.Double ErrorBudget.Parser Float.Model

variable {R : Type*} [CommRing R] {x : Float}

/-- The text of a negative integer has a minus sign in front. -/
theorem toString_neg {k : Int} (hk : 0 < k) : toString (-k) = "-" ++ toString k := by
  obtain ⟨n, rfl⟩ := Int.eq_succ_of_zero_lt hk
  rfl

/-- A finite number is defined. -/
theorem isNaN_of_isFinite (hfinite : x.isFinite = true) : x.isNaN = false := by
  rw [isFinite_eq] at hfinite
  rw [isNaN_eq]
  cases hx : parts x with
  | notANumber =>
    rw [hx] at hfinite
    contradiction
  | _ => rfl

/-- The text of a finite number is that of its exact form. -/
theorem plain_of_finite (hfinite : x.isFinite = true) :
    Numeral.plain x = (Binary.ofFloat x).plain := by
  have hdefinition : Numeral.plain x = floatText Binary.plain x := rfl
  have hnumber := isNaN_of_isFinite hfinite
  rw [hdefinition, floatText, if_neg (Bool.eq_false_iff.mp hnumber), if_pos hfinite]

/-- The text of a finite number, given its exact form. -/
theorem printNumber_of_finite {b : Binary} (hfinite : x.isFinite = true)
    (hb : Binary.ofFloat x = b) :
    printNumber x =
      match b.integer? with
      | some k => if k.natAbs < integerBound then toString k else b.plain
      | none => b.plain := by
  have hnumber : Scalar.isNaN x = false := isNaN_of_isFinite hfinite
  have hscalar : Scalar.isFinite x = true := hfinite
  have hinteger : Scalar.integer? x = (Binary.ofFloat x).integer? := if_pos hfinite
  rw [printNumber, hnumber, hscalar, hinteger, plain_of_finite hfinite, hb]
  rfl

/-- A number below zero is written with a sign in front of its magnitude. -/
theorem printNumber_of_neg (hneg : x < 0) :
    printNumber x = "-" ++ printNumber x.abs := by
  rw [lt_zero_iff] at hneg
  have habs := parts_abs x
  cases hx : parts x with
  | notANumber | zero s =>
    rw [hx] at hneg
    contradiction
  | infinity s =>
    rw [hx] at hneg habs
    cases s with
    | positive => contradiction
    | negative =>
      have hx : x = -(1 / 0) := by
        apply parts_injective
        rw [hx, parts_neg, parts_infinity]
        rfl
      subst hx
      decide +kernel
  | finite s m e hpos =>
    have hfinite : x.isFinite = true := by
      rw [isFinite_eq, hx]
      rfl
    have hfinite' : x.abs.isFinite = true := by
      rw [isFinite_eq, habs, hx]
      rfl
    rw [hx] at hneg habs
    cases s with
    | positive => simp [UnpackedFloat.lt, UnpackedFloat.compare] at hneg
    | negative =>
      rw [printNumber_of_finite hfinite (ofFloat_of_finite hx),
        printNumber_of_finite hfinite' (ofFloat_of_finite habs), integer?_negative, plain_negative]
      -- An integer is written by its digits, which do not depend on the sign.
      cases hk : (exactOf .positive m e).integer? with
      | none => rfl
      | some k =>
        have hnonneg := integer?_nonneg hk
        have hne := integer?_ne_zero hpos hk
        have htext : toString (-k) = "-" ++ toString k := toString_neg (by omega)
        simp only [Option.map_some, Int.natAbs_neg, htext]
        split <;> rfl

/-- The digits of a natural number are read as it. -/
theorem gives_natural (n : Nat) :
    Token.Gives (Derives .atom · (.number (Scalar.ofDecimal n 0 : Float))) (toString n).toList := by
  rw [← Literal.chars_ofNat]
  exact Token.gives_literal (Literal.isPlain_ofNat n) (Literal.value?_ofNat n) fun s => .number _ s

/-- A finite number that is its own magnitude is read as itself. -/
theorem gives_magnitude (hx : IsWritable x) (habs : x = x.abs) (hfinite : x.isFinite = true) :
    Token.Gives (Derives .atom · (.number x)) (printNumber x).toList := by
  rw [printNumber_of_finite hfinite rfl]
  have hplain : Token.Gives (Derives .atom · (.number x)) (Binary.ofFloat x).plain.toList := by
    obtain ⟨l, hl, hchars, m, k, hvalue, hread⟩ := hx.readsBack hfinite
    rw [← habs] at hchars hread
    rw [← plain_of_finite hfinite, ← hchars, ← hread]
    exact Token.gives_literal hl hvalue fun s => .number _ s
  cases hk : (Binary.ofFloat x).integer? with
  | none => exact hplain
  | some k =>
    by_cases hsmall : k.natAbs < integerBound
    · -- The digits of a small integer are read without rounding.
      have hnonneg := integer?_nonneg_of_abs habs hfinite hk
      have hbound : k.natAbs < 2 ^ 53 := Nat.lt_trans hsmall (by decide)
      have hdigits : x = Scalar.ofDecimal k.natAbs 0 := by
        rw [habs]
        exact abs_eq_nearestFloat hfinite hk hbound
      have htext : toString k = toString k.natAbs := by
        rw [← Int.natAbs_of_nonneg hnonneg]
        rfl
      simp only [if_pos hsmall, htext]
      rw [hdigits]
      exact gives_natural k.natAbs
    · simp only [if_neg hsmall]
      exact hplain

/-- A number that is its own magnitude is spelled without a sign. -/
theorem spells_magnitude (hx : IsWritable x) (habs : x = x.abs) :
    Spells R (Derives .atom) (printNumber x).toList (.number x) := by
  by_cases hfinite : x.isFinite = true
  · exact Spells.of_gives (gives_magnitude hx habs hfinite)
  · -- Infinity is written as the constant, which has the same value.
    obtain rfl := eq_infinity_of_abs habs hx.isNumber hfinite
    have hprint : (printNumber (1 / 0 : Float)).toList = Constant.infinity.name.toList := by
      decide +kernel
    have hagrees : Agrees R (.constant .infinity) (.number (1 / 0)) :=
      ⟨fun _ => rfl, fun I => I.literal_infinity.symm, iff_of_true trivial hx.isNumber⟩
    rw [hprint]
    exact (Spells.constant .infinity).of_agrees hagrees

/-- A literal that is not below zero is spelled as an operand. -/
theorem spells_printNumber (hx : IsWritable x) (hneg : ¬x < 0) :
    Spells R (Derives .atom) (printNumber x).toList (.number x) := by
  rcases sign_cases hx.isNumber with ⟨hlt, -⟩ | ⟨-, habs | hzero⟩
  · exact absurd hlt hneg
  · exact spells_magnitude hx habs
  · subst hzero
    have hprint : printNumber (-0 : Float) = toString 0 := by decide +kernel
    have hproper : IsProper (.number (Scalar.ofDecimal 0 0)) :=
      (isNaN_neg 0).symm.trans hx.isNumber
    have hagrees : Agrees R (.number (Scalar.ofDecimal 0 0)) (.number (-0)) :=
      ⟨fun _ => rfl, fun I => I.literal_zero.trans I.literal_neg_zero.symm,
        iff_of_true hproper hx.isNumber⟩
    rw [hprint]
    exact (Spells.of_gives (gives_natural 0)).of_agrees hagrees

/-- A literal below zero is spelled as a factor. -/
theorem spells_printNumber_of_neg (hx : IsWritable x) (hneg : x < 0) :
    Spells R Factors (printNumber x).toList (.number x) := by
  rcases sign_cases hx.isNumber with ⟨-, habs⟩ | ⟨hle, -⟩
  · have hproper : IsProper (.number x.abs) := hx.abs.isNumber
    have hmagnitude : Spells R (Derives .atom) (printNumber x.abs).toList (.number x.abs) :=
      spells_magnitude hx.abs (abs_abs x).symm
    have hagrees : Agrees R (.mul (.number (-1)) (.number x.abs)) (.number x) := by
      have hnegate : Agrees R (negate (.number x.abs)) (.mul (.number (-1)) (.number x.abs)) :=
        .negate hproper
      have hx : negate (.number x.abs) = .number x := congrArg number habs.symm
      rw [hx] at hnegate
      exact hnegate.symm
    rw [printNumber_of_neg hneg, String.toList_append]
    exact (hmagnitude.factors (by decide) hproper).negate.of_agrees hagrees
  · exact absurd hneg hle

end Expr

end ErrorBudget
