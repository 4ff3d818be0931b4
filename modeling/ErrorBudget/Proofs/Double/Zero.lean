import ErrorBudget.Proofs.Double.Sums

/-!
# Adding and multiplying by zero

To add a zero changes a number only where it is the negative zero. Sums and products of numbers that
are their own magnitudes are their own magnitudes, infinite and undefined ones included
(`abs_add`, `abs_mul`), so there is no negative zero among them, and a zero that is added changes
nothing (`add_zero_of_abs`). A product with zero is zero only if the other factor is finite
(`mul_zero_of_isFinite`): a sum of such products is zero, but one infinite factor makes it
undefined.
-/

set_option autoImplicit false

namespace ErrorBudget.Double

open Float.Model Float.Model.UnpackedFloat

variable {x y : Float}

/-- The parts of a number that is its own magnitude. Unlike a number that is not negative, it is not
the negative zero. -/
inductive IsAbs : UnpackedFloat → Prop
  | notANumber : IsAbs .notANumber
  | infinity : IsAbs (.infinity .positive)
  | zero : IsAbs (.zero .positive)
  | finite {m : Nat} {e : Int} (hpos : 0 < m) : IsAbs (.finite .positive m e hpos)

/-- A number is its own absolute value exactly if its parts have no minus. -/
theorem isAbs_iff : IsAbs (parts x) ↔ x.abs = x := by
  have hparts : x.abs = x ↔ (parts x).abs = parts x := by
    rw [← parts_abs]
    exact ⟨congrArg parts, parts_injective⟩
  rw [hparts]
  rcases parts x with (_ | _) | _ | (_ | _) | ⟨_ | _, m, e, hpos⟩
  · exact iff_of_false (by rintro ⟨⟩) (by simp [UnpackedFloat.abs])
  · exact iff_of_true .infinity rfl
  · exact iff_of_true .notANumber rfl
  · exact iff_of_false (by rintro ⟨⟩) (by simp [UnpackedFloat.abs])
  · exact iff_of_true .zero rfl
  · exact iff_of_false (by rintro ⟨⟩) (by simp [UnpackedFloat.abs])
  · exact iff_of_true (.finite hpos) rfl

/-- What a number that is not negative is rounded to has no minus. -/
theorem RoundsTo.isAbs {v : ℝ} {u : UnpackedFloat} (h : RoundsTo .positive v u) : IsAbs u := by
  cases h with
  | zero => exact .zero
  | finite hpos => exact .finite hpos
  | infinity => exact .infinity

/-- Parts without a minus stay so when they are packed. -/
theorem IsAbs.of_packs {u : UnpackedFloat} {n : Nat} (h : IsAbs u) (hpacks : Packs u n) :
    IsAbs (Float.Model.pack u).unpack :=
  hpacks.unpack_pack.symm ▸ h

/-- What is undefined counts as its own absolute value. -/
theorem isAbs_notANumber : IsAbs (Float.Model.pack .notANumber).unpack :=
  IsAbs.notANumber.of_packs .notANumber

/-- Infinity is its own absolute value. -/
theorem isAbs_infinity : IsAbs (Float.Model.pack (.infinity .positive)).unpack :=
  IsAbs.infinity.of_packs (.infinity .positive)

/-- The positive zero is its own absolute value. -/
theorem isAbs_zero : IsAbs (Float.Model.pack (.zero .positive)).unpack :=
  IsAbs.zero.of_packs (.zero .positive)

/-- The literal zero has no minus. -/
theorem abs_zero : (0 : Float).abs = 0 :=
  isAbs_iff.mp .zero

/-- A sum of absolute values is its own absolute value. -/
theorem abs_add (hx : x.abs = x) (hy : y.abs = y) : (x + y).abs = x + y := by
  have hpacks := packs_parts x
  have hpacks' := packs_parts y
  rw [← isAbs_iff] at *
  rw [parts_add]
  generalize parts x = u at *
  generalize parts y = v at *
  cases hx with
  | notANumber => cases hy <;> exact isAbs_notANumber
  | infinity =>
    cases hy with
    | notANumber => exact isAbs_notANumber
    | infinity | zero | finite => exact isAbs_infinity
  | zero =>
    cases hy with
    | notANumber => exact isAbs_notANumber
    | infinity => exact isAbs_infinity
    | zero => exact isAbs_zero
    | finite hpos => exact (IsAbs.finite hpos).of_packs hpacks'
  | finite hpos =>
    cases hy with
    | notANumber => exact isAbs_notANumber
    | infinity => exact isAbs_infinity
    | zero => exact (IsAbs.finite hpos).of_packs hpacks
    | finite hpos' => exact (roundsTo_add hpos hpos').isAbs

/-- A product of absolute values is its own absolute value. -/
theorem abs_mul (hx : x.abs = x) (hy : y.abs = y) : (x * y).abs = x * y := by
  have hcanonical {m : Nat} {e : Int} {hpos : 0 < m} {z : Float}
      (h : parts z = .finite .positive m e hpos) := isCanonical_of_parts h
  rw [← isAbs_iff] at *
  rw [parts_mul]
  generalize hu : parts x = u at *
  generalize hv : parts y = v at *
  cases hx with
  | notANumber => cases hy <;> exact isAbs_notANumber
  | infinity =>
    cases hy with
    | notANumber | zero => exact isAbs_notANumber
    | infinity | finite => exact isAbs_infinity
  | zero =>
    cases hy with
    | notANumber | infinity => exact isAbs_notANumber
    | zero | finite => exact isAbs_zero
  | finite hpos =>
    cases hy with
    | notANumber => exact isAbs_notANumber
    | infinity => exact isAbs_infinity
    | zero => exact isAbs_zero
    | finite hpos' =>
      exact (roundsTo_mul (hcanonical hu) (hcanonical hv) hpos hpos').isAbs

/-- Adding zero to an absolute value changes nothing, not even the sign of a zero. -/
theorem add_zero_of_abs (hx : x.abs = x) : x + 0 = x := by
  have hpacks := packs_parts x
  apply parts_injective
  rw [← isAbs_iff] at hx
  rw [parts_add, parts_zero]
  generalize parts x = u at *
  cases hx with
  | notANumber | infinity | zero => rfl
  | finite hpos => exact hpacks.unpack_pack

/-- The magnitude of a finite number times zero is the positive zero. -/
theorem mul_zero_of_isFinite (hx : x.isFinite = true) : x.abs * 0 = 0 := by
  apply parts_injective
  rw [isFinite_eq] at hx
  rw [parts_mul, parts_abs, parts_zero]
  generalize parts x = u at *
  cases u with
  | notANumber | infinity => simp [UnpackedFloat.isFinite] at hx
  | zero | finite => exact (Packs.zero .positive).unpack_pack

section Sums

variable {l : List Float}

/-- Adding absolute values to an absolute value gives one. -/
theorem abs_foldl (hx : x.abs = x) (hl : ∀ y ∈ l, y.abs = y) :
    (l.foldl (· + ·) x).abs = l.foldl (· + ·) x := by
  induction l generalizing x with
  | nil => exact hx
  | cons y l ih =>
    obtain ⟨hy, hrest⟩ := List.forall_mem_cons.mp hl
    exact ih (abs_add hx hy) hrest

/-- A sum of absolute values is its own absolute value, for any number of terms. -/
theorem abs_total (hl : ∀ y ∈ l, y.abs = y) : (Mat.total l).abs = Mat.total l := by
  cases l with
  | nil => exact abs_zero
  | cons y l =>
    obtain ⟨hy, hrest⟩ := List.forall_mem_cons.mp hl
    exact abs_foldl hy hrest

/-- A sum of zeros is zero. -/
theorem total_of_zeros (hl : ∀ y ∈ l, y = 0) : Mat.total l = 0 := by
  have hfoldl : ∀ l : List Float, (∀ y ∈ l, y = 0) → l.foldl (· + ·) 0 = 0 := by
    intro l hl
    induction l with
    | nil => rfl
    | cons y l ih =>
      obtain ⟨rfl, hrest⟩ := List.forall_mem_cons.mp hl
      rw [List.foldl_cons, add_zero_of_abs abs_zero]
      exact ih hrest
  cases l with
  | nil => rfl
  | cons y l =>
    obtain ⟨rfl, hrest⟩ := List.forall_mem_cons.mp hl
    exact hfoldl l hrest

variable {m n : ℕ} {A : Mat Float m n} {v : Vector Float n} {i : Fin m}

/-- An entry of a product with magnitudes is its own absolute value if those of the column are. -/
theorem abs_mulVec (hv : ∀ j, (v.get j).abs = v.get j) :
    (((A.map Scalar.abs).mulVec v).get i).abs = ((A.map Scalar.abs).mulVec v).get i := by
  rw [mulVec_abs_get]
  apply abs_total
  rw [List.forall_mem_map]
  exact fun j _ => abs_mul (abs_abs _) (hv j)

/-- Finite numbers times zeros add up to zero. -/
theorem mulVec_of_zeros (hA : ∀ j, (A i j).isFinite = true) (hv : ∀ j, v.get j = 0) :
    ((A.map Scalar.abs).mulVec v).get i = 0 := by
  rw [mulVec_abs_get]
  apply total_of_zeros
  rw [List.forall_mem_map]
  intro j _
  rw [hv j, mul_zero_of_isFinite (hA j)]

end Sums

end ErrorBudget.Double
