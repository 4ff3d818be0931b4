import ErrorBudget.Proofs.Quadrature
import Mathlib.Data.List.FinRange

/-!
# Systems written in other ways

Linear propagation over exact numbers depends on a system and not on how it is written. The
equations may be given in another order, each of them may be multiplied by a factor that is not
zero, and the variables may be measured in other units. The first two change nothing; with other
units every error is the same error in its new unit, and whether there is a result at all does not
change (`Jacobian.propagate_rewritten`).

The rows of a rewritten system are other rows, and the columns of the inverse are other columns.
Taking magnitudes commutes with both changes, so they cancel in the product of the two, and the
units of all variables but the one that is asked for cancel too
(`Jacobian.unknownWeights_rewritten`).
-/

set_option autoImplicit false

namespace ErrorBudget

open Matrix

/-- The same quantities in other units: the number for a variable is multiplied by its unit. -/
def Point.inUnits (p : Point ℝ) (unit : String → ℝ) : Point ℝ :=
  Std.ExtTreeMap.map (fun x a => unit x * a) p

/-- A row with its variable in another unit. An error has no sign, and a percentage no unit. -/
def Row.inUnits (row : Row ℝ) (unit : String → ℝ) : Row ℝ :=
  { row with value := unit row.name * row.value, error := |unit row.name| * row.error }

/-- A table with its variables in other units. -/
def Table.inUnits (t : Table ℝ) (unit : String → ℝ) : Table ℝ :=
  ⟨t.rows.map fun row => row.inUnits unit⟩

namespace Jacobian

/-- The Jacobian of the same equations in another order, each of them multiplied by a factor. -/
abbrev reordered (J : Jacobian ℝ) (σ : Equiv.Perm (Fin J.equations))
    (factor : Fin J.equations → ℝ) : Jacobian ℝ where
  equations := J.equations
  unknown := J.unknown
  known := J.known
  cells := Mat.ofFn fun i j => factor i * J.cells (σ i) j

/-- The Jacobian with its variables in other units: a derivative with respect to a variable is
divided by its unit. -/
noncomputable abbrev inUnits (J : Jacobian ℝ) (unit : String → ℝ) : Jacobian ℝ where
  equations := J.equations
  unknown := J.unknown
  known := J.known
  cells := Mat.ofFn fun i j => J.cells i j / unit (J.columns.get (j.cast J.length_columns.symm))

/-- The Jacobian of the same system, written in another way. -/
noncomputable abbrev rewritten (J : Jacobian ℝ) (σ : Equiv.Perm (Fin J.equations))
    (factor : Fin J.equations → ℝ) (unit : String → ℝ) : Jacobian ℝ :=
  (J.reordered σ factor).inUnits unit

end Jacobian

section Units

variable {unit : String → ℝ}

/-- A quantity in another unit is multiplied by it. -/
theorem Point.getElem?_inUnits (p : Point ℝ) (x : String) :
    (p.inUnits unit)[x]? = p[x]?.map (unit x * ·) :=
  Std.ExtTreeMap.getElem?_map

/-- A missing quantity is zero in all units. -/
theorem Point.getD_inUnits (p : Point ℝ) (x : String) :
    (p.inUnits unit).getD x 0 = unit x * p.getD x 0 := by
  rw [Std.ExtTreeMap.getD_eq_getD_getElem?, Std.ExtTreeMap.getD_eq_getD_getElem?,
    Point.getElem?_inUnits]
  cases p[x]? with
  | none => simp
  | some a => rfl

/-- A constant component in another unit is multiplied by it. -/
theorem Jacobian.component_inUnits (constants : Option (Point ℝ)) (x : String) :
    component (constants.map (·.inUnits unit)) x = unit x * component constants x := by
  cases constants with
  | none => simp [component]
  | some c => exact c.getD_inUnits x

/-- A percentage does not depend on the unit. -/
theorem percentError_mul {c : ℝ} (hc : c ≠ 0) (error value : ℝ) :
    percentError (|c| * error) (c * value) = percentError error value := by
  have habs : |c| ≠ 0 := abs_ne_zero.mpr hc
  have hquotient : |(|c| * error) / (c * value)| = |error / value| := by
    rw [abs_div, abs_mul, abs_mul, abs_abs, mul_div_mul_left _ _ habs, ← abs_div]
  have hsame : Scalar.abs ((|c| * error) / (c * value)) = Scalar.abs (error / value) := hquotient
  rw [percentError, hsame, ← percentError]

/-- A row of a variable in another unit. -/
theorem Row.inUnits_single (hunit : ∀ x, unit x ≠ 0) (x : String) (value error : ℝ)
    (isCalculated : Bool) :
    (Row.single x value error isCalculated).inUnits unit =
      Row.single x (unit x * value) (|unit x| * error) isCalculated := by
  rw [Row.single, Row.single, percentError_mul (hunit x)]
  rfl

/-- Changing units does not move rows. -/
theorem Row.insert_inUnits (row : Row ℝ) (rows : List (Row ℝ)) :
    Row.insert (row.inUnits unit) (rows.map (·.inUnits unit)) =
      (Row.insert row rows).map (·.inUnits unit) := by
  induction rows with
  | nil => rfl
  | cons r rows ih =>
    have hle : (row.inUnits unit).le (r.inUnits unit) = row.le r := rfl
    rw [List.map_cons, Row.insert, Row.insert, hle, ih]
    split_ifs
    · rfl
    · rfl

/-- A table in other units is made of its rows in these units. -/
theorem Table.ofRows_inUnits (rows : List (Row ℝ)) :
    Table.ofRows (rows.map (·.inUnits unit)) = (Table.ofRows rows).inUnits unit := by
  have hrows : (rows.map (·.inUnits unit)).foldr Row.insert [] =
      (rows.foldr Row.insert []).map (·.inUnits unit) := by
    induction rows with
    | nil => rfl
    | cons row rows ih =>
      rw [List.map_cons, List.foldr_cons, ih, Row.insert_inUnits, List.foldr_cons]
  exact congrArg Table.mk hrows

/-- In units of one nothing changes at a point. -/
theorem Point.inUnits_one (p : Point ℝ) : p.inUnits (fun _ => 1) = p := by
  apply Std.ExtTreeMap.ext_getElem?
  intro x
  rw [Point.getElem?_inUnits]
  cases p[x]? with
  | none => rfl
  | some a => exact congrArg some (one_mul a)

/-- In units of one nothing changes in a table. -/
theorem Table.inUnits_one (t : Table ℝ) : t.inUnits (fun _ => 1) = t := by
  have hrow (row : Row ℝ) : row.inUnits (fun _ => 1) = row := by
    simp [Row.inUnits]
  simp [Table.inUnits, hrow]

end Units

namespace Jacobian

variable {J : Jacobian ℝ} {square : J.IsSquare} {σ : Equiv.Perm (Fin J.equations)}
  {factor : Fin J.equations → ℝ} {unit : String → ℝ}

/-- Without a change of the order and without factors the Jacobian is the same. -/
theorem reordered_one (J : Jacobian ℝ) : J.reordered (Equiv.refl _) (fun _ => 1) = J := by
  have hcells : (Mat.ofFn fun i j => 1 * J.cells (Equiv.refl _ i) j) = J.cells :=
    Mat.ext_apply fun i j => (Mat.ofFn_apply ..).trans (one_mul _)
  rw [reordered, hcells]

/-- In units of one the Jacobian is the same. -/
theorem inUnits_one (J : Jacobian ℝ) : J.inUnits (fun _ => 1) = J := by
  have hcells : (Mat.ofFn fun i j => J.cells i j / 1) = J.cells :=
    Mat.ext_apply fun i j => (Mat.ofFn_apply ..).trans (div_one _)
  rw [inUnits, hcells]

/-- An entry of the rewritten columns of the unknown variables. -/
theorem unknownBlock_rewritten (i : Fin J.equations) (j : Fin J.unknown.length) :
    (J.rewritten σ factor unit).unknownBlock i j =
      factor i * J.unknownBlock (σ i) j / unit (J.unknown.get j) := by
  have hlt : j.val < J.columns.length := by
    simp [columns]
    omega
  have hcolumn : J.columns.get ⟨j.val, hlt⟩ = J.unknown.get j := List.getElem_append_left j.isLt
  simp only [unknownBlock, Mat.ofFn_apply]
  exact congrArg (fun x => _ / unit x) hcolumn

/-- An entry of the rewritten columns of the known variables. -/
theorem knownBlock_rewritten (i : Fin J.equations) (j : Fin J.known.length) :
    (J.rewritten σ factor unit).knownBlock i j =
      factor i * J.knownBlock (σ i) j / unit (J.known.get j) := by
  have hlt : J.unknown.length + j.val < J.columns.length := by
    simp [columns]
  have hcolumn : J.columns.get ⟨J.unknown.length + j.val, hlt⟩ = J.known.get j := by
    simp [columns]
  simp only [knownBlock, Mat.ofFn_apply]
  exact congrArg (fun x => _ / unit x) hcolumn

/-- The order of the equations as an order of the rows of the square block. -/
def orderOf (square : J.IsSquare) (σ : Equiv.Perm (Fin J.equations)) :
    Equiv.Perm (Fin J.unknown.length) :=
  (finCongr square.length_eq).permCongr σ

/-- To rewrite a system is to multiply its square block by diagonal matrices and to permute its
rows. -/
theorem squareBlock_rewritten : (J.rewritten σ factor unit).squareBlock square =
    diagonal (fun k => factor (k.cast square.length_eq.symm)) *
      (J.squareBlock square).submatrix (orderOf square σ) id *
      diagonal fun j => (unit (J.unknown.get j))⁻¹ := by
  ext i j
  have hentry : J.squareBlock square (orderOf square σ i) j =
      J.unknownBlock (σ (i.cast square.length_eq.symm)) j := Mat.castRows_apply ..
  rw [mul_diagonal, diagonal_mul, submatrix_apply, id_eq, hentry, ← div_eq_mul_inv]
  exact (Mat.castRows_apply ..).trans (unknownBlock_rewritten ..)

/-- Whether the unknown columns have an inverse does not depend on how the system is written. -/
theorem det_squareBlock_rewritten (hfactor : ∀ i, factor i ≠ 0) (hunit : ∀ x, unit x ≠ 0) :
    ((J.rewritten σ factor unit).squareBlock square).det = 0 ↔ (J.squareBlock square).det = 0 := by
  have hfactors : ∏ k, factor (Fin.cast square.length_eq.symm k) ≠ 0 :=
    Finset.prod_ne_zero_iff.mpr fun k _ => hfactor _
  have hunits : ∏ j, (unit (J.unknown.get j))⁻¹ ≠ 0 :=
    Finset.prod_ne_zero_iff.mpr fun j _ => inv_ne_zero (hunit _)
  have hsign : ((Equiv.Perm.sign (orderOf square σ) : ℤ) : ℝ) ≠ 0 := by
    rcases Int.units_eq_one_or (Equiv.Perm.sign (orderOf square σ)) with h | h <;> simp [h]
  rw [squareBlock_rewritten, det_mul, det_mul, det_diagonal, det_diagonal, det_permute, mul_eq_zero,
    mul_eq_zero, mul_eq_zero, or_iff_left hunits, or_iff_right hfactors, or_iff_right hsign]

/-- A rewritten system has an inverse exactly if the system has one. -/
theorem exists_inverse?_rewritten_iff (hfactor : ∀ i, factor i ≠ 0) (hunit : ∀ x, unit x ≠ 0) :
    (∃ B, (J.rewritten σ factor unit).inverse? square = some B) ↔
      ∃ B, J.inverse? square = some B :=
  calc (∃ B, (J.rewritten σ factor unit).inverse? square = some B)
    _ ↔ ((J.rewritten σ factor unit).squareBlock square).det ≠ 0 := exists_inverse?_iff
    _ ↔ (J.squareBlock square).det ≠ 0 := not_congr (det_squareBlock_rewritten hfactor hunit)
    _ ↔ ∃ B, J.inverse? square = some B := exists_inverse?_iff.symm

/-- The rows of the inverse are those of the given system in the new units, and its columns are
divided by the factors. -/
theorem inverse_rewritten (hfactor : ∀ i, factor i ≠ 0) (hunit : ∀ x, unit x ≠ 0)
    {B B' : Mat ℝ J.unknown.length J.unknown.length} (hB : J.inverse? square = some B)
    (hB' : (J.rewritten σ factor unit).inverse? square = some B') (i k : Fin J.unknown.length) :
    B' i k = unit (J.unknown.get i) * B i (orderOf square σ k) /
      factor (k.cast square.length_eq.symm) := by
  have hproduct (i j : Fin J.unknown.length) : ∑ k, B i k * J.squareBlock square k j =
      (1 : Matrix (Fin J.unknown.length) (Fin J.unknown.length) ℝ) i j := by
    rw [← inverse?_mul_squareBlock hB]
    rfl
  have hleft : (Matrix.of fun i k => unit (J.unknown.get i) * B i (orderOf square σ k) /
      factor (k.cast square.length_eq.symm)) * (J.rewritten σ factor unit).squareBlock square =
        1 := by
    ext i j
    have hterm (k : Fin J.unknown.length) :
        unit (J.unknown.get i) * B i (orderOf square σ k) / factor (k.cast square.length_eq.symm) *
          (J.rewritten σ factor unit).squareBlock square k j =
        unit (J.unknown.get i) / unit (J.unknown.get j) *
          (B i (orderOf square σ k) * J.squareBlock square (orderOf square σ k) j) := by
      have hrow := hfactor (k.cast square.length_eq.symm)
      rw [squareBlock_rewritten, mul_diagonal, diagonal_mul, submatrix_apply, id_eq]
      field_simp
    rw [mul_apply]
    simp only [of_apply, hterm]
    rw [← Finset.mul_sum,
      Equiv.sum_comp (orderOf square σ) fun k => B i k * J.squareBlock square k j, hproduct]
    obtain rfl | hne := eq_or_ne i j
    · rw [one_apply_eq, div_self (hunit _), mul_one]
    · rw [one_apply_ne hne, mul_zero]
  exact congrFun₂ (left_inv_eq_left_inv (inverse?_mul_squareBlock hB') hleft) i k

/-- The weight of a known variable is multiplied by its unit. -/
theorem knownWeights_rewritten (errors : Point ℝ) (constants : Option (Point ℝ))
    (j : Fin J.known.length) :
    ((J.rewritten σ factor unit).knownWeights .linear (errors.inUnits unit)
        (constants.map (·.inUnits unit))).get j =
      |unit (J.known.get j)| * (J.knownWeights .linear errors constants).get j := by
  rw [knownWeights_get, knownWeights_get, Point.getD_inUnits, component_inUnits,
    Combination.weigh_linear, Combination.weigh_linear, Combination.weigh_linear,
    Combination.weigh_linear, abs_mul, abs_mul, mul_add]

/-- The sources are numbers of the equations, so they do not depend on units. -/
theorem sources_rewritten (hunit : ∀ x, unit x ≠ 0) (errors : Point ℝ)
    (constants : Option (Point ℝ)) (k : Fin J.equations) :
    ((J.rewritten σ factor unit).sources .linear (errors.inUnits unit)
        (constants.map (·.inUnits unit))).get k =
      |factor k| * (J.sources .linear errors constants).get (σ k) := by
  have hcancel (c : ℝ) (x : String) (w : ℝ) :
      |factor k * c / unit x| * (|unit x| * w) = |factor k| * (|c| * w) := by
    have hpos : |unit x| ≠ 0 := abs_ne_zero.mpr (hunit x)
    rw [abs_div, abs_mul]
    field_simp
  rw [sources_get, sources_get, mul_add, Finset.mul_sum, Finset.mul_sum]
  congr 1
  · refine Finset.sum_congr rfl fun j _ => ?_
    rw [knownBlock_rewritten, knownWeights_rewritten, hcancel]
  · refine Finset.sum_congr rfl fun j _ => ?_
    rw [unknownBlock_rewritten, component_inUnits, Combination.weigh_linear,
      Combination.weigh_linear, abs_mul, hcancel]

/-- The factors of the equations cancel, and their order does not matter to a sum. -/
theorem unknownWeights_rewritten (hfactor : ∀ i, factor i ≠ 0) (hunit : ∀ x, unit x ≠ 0)
    {B B' : Mat ℝ J.unknown.length J.unknown.length} (hB : J.inverse? square = some B)
    (hB' : (J.rewritten σ factor unit).inverse? square = some B') (errors : Point ℝ)
    (constants : Option (Point ℝ)) (i : Fin J.unknown.length) :
    ((J.rewritten σ factor unit).unknownWeights square B' .linear (errors.inUnits unit)
        (constants.map (·.inUnits unit))).get i =
      |unit (J.unknown.get i)| * (J.unknownWeights square B .linear errors constants).get i := by
  let term (k : Fin J.unknown.length) : ℝ :=
    |B i k| * (J.sources .linear errors constants).get (k.cast square.length_eq.symm)
  have hterm (k : Fin J.unknown.length) : |B' i k| *
      ((J.rewritten σ factor unit).sources .linear (errors.inUnits unit)
        (constants.map (·.inUnits unit))).get (k.cast square.length_eq.symm) =
        |unit (J.unknown.get i)| * term (orderOf square σ k) := by
    have hpos : |factor (k.cast square.length_eq.symm)| ≠ 0 := abs_ne_zero.mpr (hfactor _)
    have hsource : term (orderOf square σ k) = |B i (orderOf square σ k)| *
        (J.sources .linear errors constants).get (σ (k.cast square.length_eq.symm)) := rfl
    rw [inverse_rewritten hfactor hunit hB hB', sources_rewritten hunit, abs_div, abs_mul, hsource]
    field_simp
  calc ((J.rewritten σ factor unit).unknownWeights square B' .linear (errors.inUnits unit)
          (constants.map (·.inUnits unit))).get i
    _ = ∑ k, |B' i k| * ((J.rewritten σ factor unit).sources .linear (errors.inUnits unit)
          (constants.map (·.inUnits unit))).get (k.cast square.length_eq.symm) :=
        unknownWeights_eq_sum ..
    _ = ∑ k, |unit (J.unknown.get i)| * term (orderOf square σ k) :=
        Finset.sum_congr rfl fun k _ => hterm k
    _ = |unit (J.unknown.get i)| * ∑ k, term k := by
        rw [← Finset.mul_sum, Equiv.sum_comp (orderOf square σ) term]
    _ = |unit (J.unknown.get i)| * (J.unknownWeights square B .linear errors constants).get i :=
        congrArg _ (unknownWeights_eq_sum ..).symm

/-- Rows of errors in other units, for values in those units. -/
theorem rowsOf_inUnits (hunit : ∀ x, unit x ≠ 0) (values : Point ℝ) (isCalculated : Bool)
    {names : List String} {u u' : Vector ℝ names.length}
    (hu : ∀ i, u'.get i = |unit (names.get i)| * u.get i) :
    rowsOf (values.inUnits unit) isCalculated (names.zip u'.toList) =
      (rowsOf values isCalculated (names.zip u.toList)).map
        (List.map (·.inUnits unit)) := by
  have hentries : names.zip u'.toList =
      (names.zip u.toList).map fun entry => (entry.1, |unit entry.1| * entry.2) := by
    apply List.ext_getElem
    · simp
    · intro i hi hi'
      simp only [List.getElem_zip, List.getElem_map]
      exact congrArg (Prod.mk _) (hu ⟨i, by simp at hi; omega⟩)
  rw [hentries]
  refine mapM_map_eq ?_
  rintro ⟨x, error⟩
  simp only [Point.getElem?_inUnits]
  cases values[x]? with
  | none => rfl
  | some value => exact congrArg Except.ok (Row.inUnits_single hunit ..).symm

/-- Under linear propagation weights are errors. -/
theorem map_unweigh_linear {n : ℕ} (u : Vector ℝ n) : u.map Combination.linear.unweigh = u :=
  Vector.ext fun _ hi => Vector.getElem_map Combination.linear.unweigh hi

/-- Propagation of a system that is written in another way gives the same table in the new units, or
the same failure. -/
theorem propagate_rewritten (J : Jacobian ℝ) (σ : Equiv.Perm (Fin J.equations))
    {factor : Fin J.equations → ℝ} (hfactor : ∀ i, factor i ≠ 0) (hunit : ∀ x, unit x ≠ 0)
    (values errors : Point ℝ) (constants : Option (Point ℝ)) :
    (J.rewritten σ factor unit).propagate .linear (values.inUnits unit) (errors.inUnits unit)
        (constants.map (·.inUnits unit)) =
      (J.propagate .linear values errors constants).map (·.inUnits unit) := by
  by_cases square : J.IsSquare
  swap
  · rw [propagate_of_not_isSquare square,
      propagate_of_not_isSquare (J := J.rewritten σ factor unit) square]
    rfl
  have hiff : (∃ B, (J.rewritten σ factor unit).inverse? square = some B) ↔
      ∃ B, J.inverse? square = some B := exists_inverse?_rewritten_iff hfactor hunit
  cases hB : J.inverse? square with
  | none =>
    cases hB' : (J.rewritten σ factor unit).inverse? square with
    | none =>
      rw [propagate_of_inverse?_eq_none hB, propagate_of_inverse?_eq_none hB']
      rfl
    | some B' =>
      obtain ⟨B, hsome⟩ := hiff.mp ⟨B', hB'⟩
      exact absurd (hB.symm.trans hsome) (by simp)
  | some B =>
    obtain ⟨B', hB'⟩ := hiff.mpr ⟨B, hB⟩
    have hunknown := rowsOf_inUnits hunit values true
      (unknownWeights_rewritten hfactor hunit hB hB' errors constants)
    have hweights (j : Fin J.known.length) :
        ((J.rewritten σ factor unit).knownWeights .linear (errors.inUnits unit)
            (constants.map (·.inUnits unit))).get j =
          |unit (J.known.get j)| * (J.knownWeights .linear errors constants).get j :=
      knownWeights_rewritten errors constants j
    have hknown := rowsOf_inUnits hunit values false hweights
    rw [propagate_of_inverse?_eq_some hB, propagate_of_inverse?_eq_some hB', map_unweigh_linear,
      map_unweigh_linear, map_unweigh_linear, map_unweigh_linear, hunknown, hknown]
    -- Both sides take the rows of the unknown and then those of the known variables.
    cases rowsOf values true (J.unknown.zip
        (J.unknownWeights square B .linear errors constants).toList) with
    | error e => rfl
    | ok calculated =>
      cases rowsOf values false (J.known.zip
          (J.knownWeights .linear errors constants).toList) with
      | error e => rfl
      | ok given =>
        refine congrArg Except.ok ?_
        rw [← List.map_append, Table.ofRows_inUnits]

/-- Errors propagate alike through reordered and multiplied equations. -/
theorem propagate_reordered (J : Jacobian ℝ) (σ : Equiv.Perm (Fin J.equations))
    {factor : Fin J.equations → ℝ} (hfactor : ∀ i, factor i ≠ 0) (values errors : Point ℝ)
    (constants : Option (Point ℝ)) :
    (J.reordered σ factor).propagate .linear values errors constants =
      J.propagate .linear values errors constants := by
  have h := J.propagate_rewritten σ hfactor (fun _ => one_ne_zero) values errors constants
  have hconstants : constants.map (·.inUnits fun _ => 1) = constants := by
    simp [Point.inUnits_one]
  have htable : (J.propagate .linear values errors constants).map (·.inUnits fun _ => 1) =
      J.propagate .linear values errors constants := by
    cases J.propagate .linear values errors constants with
    | error e => rfl
    | ok t => exact congrArg Except.ok t.inUnits_one
  rwa [rewritten, inUnits_one, Point.inUnits_one, Point.inUnits_one, hconstants, htable] at h

/-- Errors propagate alike in other units. -/
theorem propagate_inUnits (J : Jacobian ℝ) (hunit : ∀ x, unit x ≠ 0) (values errors : Point ℝ)
    (constants : Option (Point ℝ)) :
    (J.inUnits unit).propagate .linear (values.inUnits unit) (errors.inUnits unit)
        (constants.map (·.inUnits unit)) =
      (J.propagate .linear values errors constants).map (·.inUnits unit) := by
  have hone (i : Fin J.equations) : (fun _ => 1 : Fin J.equations → ℝ) i ≠ 0 := one_ne_zero
  have h := J.propagate_rewritten (Equiv.refl _) hone hunit values errors constants
  rwa [rewritten, reordered_one] at h

section Order

variable {p : Partition} {rows rows' : List (Point ℝ)}

/-- The elements of a list, found in the same list in another order. -/
theorem exists_equiv_of_perm {α : Type} {as bs : List α} (h : as.Perm bs) :
    ∃ e : Fin bs.length ≃ Fin as.length, ∀ i, as.get (e i) = bs.get i := by
  classical
  refine ⟨⟨h.symm.idxBij, h.idxBij, ?_, ?_⟩, ?_⟩
  · exact h.idxBij_leftInverse_idxBij_symm
  · exact h.idxBij_rightInverse_idxBij_symm
  · exact h.symm.getElem_idxBij_eq_getElem

/-- A Jacobian with the rows of another one is that one with its rows in another order. -/
theorem exists_eq_reordered {J : Jacobian ℝ} {m : ℕ} (hm : m = J.equations)
    (e : Fin m ≃ Fin J.equations) {cells : Mat ℝ m (J.unknown.length + J.known.length)}
    (hcells : ∀ i j, cells i j = J.cells (e i) j) :
    ∃ σ, ⟨m, J.unknown, J.known, cells⟩ = J.reordered σ fun _ => 1 := by
  subst hm
  refine ⟨e, congrArg (Jacobian.mk _ _ _) (Mat.ext_apply fun i j => ?_)⟩
  rw [hcells, Mat.ofFn_apply, one_mul]

/-- An entry of a Jacobian that is made of its rows. -/
theorem cells_ofRows (i : Fin (ofRows p rows).equations)
    (j : Fin (p.unknown.length + p.known.length)) : (ofRows p rows).cells i j =
      (rows.get i).getD (p.columns.get (j.cast (by simp [Partition.columns]))) 0 :=
  Mat.ofFn_apply ..

/-- Rows in another order make a Jacobian with its rows in another order. -/
theorem exists_ofRows_eq_reordered (h : rows.Perm rows') :
    ∃ σ, ofRows p rows' = (ofRows p rows).reordered σ fun _ => 1 := by
  obtain ⟨e, he⟩ := exists_equiv_of_perm h
  refine exists_eq_reordered (J := ofRows p rows) h.length_eq.symm e fun i j => ?_
  exact (cells_ofRows i j).trans ((he i).symm ▸ (cells_ofRows (e i) j).symm)

/-- The table does not depend on the order of the equations. -/
theorem propagate_of_perm {equations equations' : List (Equation ℝ)}
    (h : equations.Perm equations') {p : Partition} {point : Point ℝ} {J : Jacobian ℝ}
    (hJ : ofEquations equations p point = .ok J) (values errors : Point ℝ)
    (constants : Option (Point ℝ)) : ∃ J', ofEquations equations' p point = .ok J' ∧
      J'.propagate .linear values errors constants =
        J.propagate .linear values errors constants := by
  obtain ⟨hrows, rfl⟩ := ofEquations_eq_ok_iff.mp hJ
  refine ⟨_, ofEquations_eq_ok_iff.mpr ⟨fun eq heq => hrows eq (h.mem_iff.mpr heq), rfl⟩, ?_⟩
  obtain ⟨σ, hσ⟩ := exists_ofRows_eq_reordered (p := p) (h.map fun eq => eq.slopes point)
  rw [ofSlopes, hσ, propagate_reordered _ σ fun _ => one_ne_zero]
  rfl

end Order

/-- One variable is measured in another unit, and the others are not. -/
def oneUnit (v : String) (c : ℝ) : String → ℝ :=
  Function.update (fun _ => 1) v c

/-- A table with one variable in another unit. -/
theorem Table.inUnits_oneUnit (t : Table ℝ) (v : String) (c : ℝ) :
    t.inUnits (oneUnit v c) = ⟨t.rows.map fun row =>
      if row.name = v then { row with value := c * row.value, error := |c| * row.error }
      else row⟩ := by
  have hrow (row : Row ℝ) : row.inUnits (oneUnit v c) =
      if row.name = v then { row with value := c * row.value, error := |c| * row.error }
      else row := by
    by_cases hname : row.name = v
    · simp [Row.inUnits, oneUnit, hname]
    · simp [Row.inUnits, oneUnit, hname]
  simp only [Table.inUnits, hrow]

/-- Linear propagation depends on a system and not on how it is written. The order of the rows and
factors that are not zero change nothing. If one variable is measured in another unit, the table is
the same but for the value and the error of this variable. Whether there is a table at all, and why
not, does not change. The rows stand in the order of the equations, which may come in any order. -/
theorem propagate_of_rewriting (J : Jacobian ℝ) (values errors : Point ℝ)
    (constants : Option (Point ℝ)) :
    (∀ (σ : Equiv.Perm (Fin J.equations)) (factor : Fin J.equations → ℝ), (∀ i, factor i ≠ 0) →
      (J.reordered σ factor).propagate .linear values errors constants =
        J.propagate .linear values errors constants) ∧
    (∀ (v : String) (c : ℝ), c ≠ 0 →
      (J.inUnits (oneUnit v c)).propagate .linear (values.inUnits (oneUnit v c))
          (errors.inUnits (oneUnit v c)) (constants.map (·.inUnits (oneUnit v c))) =
        (J.propagate .linear values errors constants).map fun t => ⟨t.rows.map fun row =>
          if row.name = v then { row with value := c * row.value, error := |c| * row.error }
          else row⟩) ∧
    ∀ (equations equations' : List (Equation ℝ)) (p : Partition) (point : Point ℝ),
      equations.Perm equations' → ofEquations equations p point = .ok J →
        ∃ J', ofEquations equations' p point = .ok J' ∧
          J'.propagate .linear values errors constants =
            J.propagate .linear values errors constants := by
  refine ⟨?_, ?_, ?_⟩
  · intro σ factor hfactor
    exact J.propagate_reordered σ hfactor values errors constants
  · intro v c hc
    have hunit (x : String) : oneUnit v c x ≠ 0 := by
      rw [oneUnit, Function.update_apply]
      split_ifs
      · exact hc
      · exact one_ne_zero
    have h := J.propagate_inUnits hunit values errors constants
    simpa only [Table.inUnits_oneUnit] using h
  · intro equations equations' p point hperm hJ
    exact propagate_of_perm hperm hJ values errors constants

section Example

/-- An equation given by functions, whose derivatives are constant. -/
def ofCoefficients (label : String) (c : Point ℝ) : Equation ℝ :=
  .native label (fun p => (c.toList.map fun term => term.2 * p.getD term.1 0).sum)
    (Std.ExtTreeMap.map (fun _ a _ => a) c)

/-- The derivative of an equation with coefficients is the coefficient. -/
theorem partialAt_ofCoefficients {label : String} {c point : Point ℝ} (h : ∀ x ∈ c, x ∈ point)
    {x : String} (hx : x ∈ c) :
    (ofCoefficients label c).partialAt x point = .ok (c.getD x 0) := by
  have hresolved : (ofCoefficients label c).requireResolved point = .ok () := by
    rw [Equation.requireResolved_eq_ok_iff]
    simpa [Equation.vars, ofCoefficients] using h
  obtain ⟨a, ha⟩ := NameMap.exists_getElem?_iff.mpr hx
  rw [Std.ExtTreeMap.getD_eq_getD_getElem?, ha]
  unfold ofCoefficients at hresolved ⊢
  simp only [Equation.partialAt, Std.ExtTreeMap.getElem?_map, ha, Option.map_some, hresolved]
  rfl

/-- The slope of an equation with coefficients is the coefficient, or zero. -/
theorem slope_ofCoefficients {label : String} {c point : Point ℝ} (h : ∀ x ∈ c, x ∈ point)
    (x : String) : (ofCoefficients label c).slope point x = c.getD x 0 := by
  by_cases hx : x ∈ c
  · exact Equation.slope_of_eq_ok (partialAt_ofCoefficients h hx)
  · rw [Std.ExtTreeMap.getD_eq_fallback hx]
    exact Equation.slope_of_not_mem (by simpa [Equation.vars, ofCoefficients] using hx)

/-- The sum and the difference of `a` and `b` are measured as `x` and `y`. -/
def sumAndDifference : List (Equation ℝ) :=
  [ofCoefficients "sum" ((((∅ : Point ℝ).insert "a" 1).insert "b" 1).insert "x" (-1)),
    ofCoefficients "difference" ((((∅ : Point ℝ).insert "a" 1).insert "b" (-1)).insert "y" (-1))]

/-- The values of all variables. -/
def measurement : Point ℝ :=
  ((((∅ : Point ℝ).insert "a" 1).insert "b" 0).insert "x" 1).insert "y" 1

/-- Their Jacobian with `a` and `b` unknown. -/
noncomputable def measured : Jacobian ℝ :=
  ofSlopes sumAndDifference ⟨["x", "y"], ["a", "b"]⟩ measurement

/-- An equation with coefficients has a row of derivatives. -/
theorem hasRow_ofCoefficients {label : String} {c point : Point ℝ} {columns : List String}
    (h : ∀ x ∈ c, x ∈ point ∧ x ∈ columns) : (ofCoefficients label c).HasRow columns point := by
  have hvars (x : String) : x ∈ (ofCoefficients label c).vars ↔ x ∈ c := by
    simp [Equation.vars, ofCoefficients]
  refine ⟨fun x hx => (h x ((hvars x).mp hx)).2, fun x hx => ?_⟩
  exact ⟨_, partialAt_ofCoefficients (fun y hy => (h y hy).1) ((hvars x).mp hx)⟩

/-- The sum and the difference have a Jacobian. -/
theorem ofEquations_sumAndDifference :
    ofEquations sumAndDifference ⟨["x", "y"], ["a", "b"]⟩ measurement = .ok measured := by
  refine ofEquations_eq_ok_iff.mpr ⟨?_, rfl⟩
  intro eq heq
  rw [sumAndDifference, List.mem_pair] at heq
  obtain rfl | rfl := heq
  · refine hasRow_ofCoefficients fun x hx => ?_
    simp only [Std.ExtTreeMap.mem_insert, measurement, Partition.columns] at hx ⊢
    grind
  · refine hasRow_ofCoefficients fun x hx => ?_
    simp only [Std.ExtTreeMap.mem_insert, measurement, Partition.columns] at hx ⊢
    grind

/-- An entry of the Jacobian of the sum and the difference. -/
theorem cells_measured (i : Fin measured.equations) (j : Fin 4) : measured.cells i j =
    (sumAndDifference.get i).slope measurement (["a", "b", "x", "y"].get j) :=
  cells_ofSlopes i j

/-- An entry of its square block. -/
theorem squareBlock_measured (i j : Fin 2) : measured.squareBlock rfl i j =
    (sumAndDifference.get i).slope measurement (["a", "b"].get j) := by
  have hcolumn : ["a", "b", "x", "y"].get (j.castAdd 2) = ["a", "b"].get j := by
    fin_cases j <;> rfl
  rw [← hcolumn]
  exact (Mat.castRows_apply ..).trans ((Mat.ofFn_apply ..).trans (cells_measured i (j.castAdd 2)))

/-- The determinant of the square block is not zero. -/
theorem det_measured : (measured.squareBlock rfl).det = -2 := by
  have hsum (x : String) : (sumAndDifference.get (0 : Fin 2)).slope measurement x =
      ((((∅ : Point ℝ).insert "a" 1).insert "b" 1).insert "x" (-1)).getD x 0 :=
    slope_ofCoefficients (fun y hy => by simp [measurement] at hy ⊢; grind) x
  have hdifference (x : String) : (sumAndDifference.get (1 : Fin 2)).slope measurement x =
      ((((∅ : Point ℝ).insert "a" 1).insert "b" (-1)).insert "y" (-1)).getD x 0 :=
    slope_ofCoefficients (fun y hy => by simp [measurement] at hy ⊢; grind) x
  have hentry (i j : Fin 2) : measured.squareBlock rfl i j =
      (!![1, 1; 1, -1] : Matrix (Fin 2) (Fin 2) ℝ) i j := by
    rw [squareBlock_measured]
    fin_cases i <;> fin_cases j
    · exact (hsum "a").trans (by simp [Std.ExtTreeMap.getD_insert])
    · exact (hsum "b").trans (by simp [Std.ExtTreeMap.getD_insert])
    · exact (hdifference "a").trans (by simp [Std.ExtTreeMap.getD_insert])
    · exact (hdifference "b").trans (by simp [Std.ExtTreeMap.getD_insert])
  calc (measured.squareBlock rfl).det
    _ = (!![1, 1; 1, -1] : Matrix (Fin 2) (Fin 2) ℝ).det := congrArg det (Matrix.ext hentry)
    _ = -2 := by norm_num [det_fin_two_of]

/-- Both measurements have a tolerance, and `a` has a constant component. -/
theorem exists_propagate_measured : ∃ t, measured.propagate .linear measurement
    (((∅ : Point ℝ).insert "x" (1 / 10)).insert "y" (1 / 5))
    (some ((∅ : Point ℝ).insert "a" (1 / 20))) = .ok t := by
  have hdet : (measured.squareBlock rfl).det ≠ 0 := by
    rw [det_measured]
    norm_num
  obtain ⟨B, hB⟩ := exists_inverse?_iff.mpr hdet
  refine ⟨_, propagate_eq_ok_iff.mpr ⟨_, B, hB, ?_, rfl⟩⟩
  simp [measured, columns, ofSlopes, ofRows, measurement]

end Example

/-- Two measurements give the same table if one of them is taken three times and the other with the
opposite sign, and in the other order. In thousandths and with the opposite sign `a` has a thousand
times the error. -/
theorem propagate_of_rewriting_measured :
    ∃ (errors constants : Point ℝ) (t : Table ℝ),
      measured.propagate .linear measurement errors (some constants) = .ok t ∧
      (measured.reordered Fin.revPerm fun i => if i.val = 0 then 3 else -1).propagate .linear
        measurement errors (some constants) = .ok t ∧
      (measured.inUnits (oneUnit "a" (-1000))).propagate .linear
          (measurement.inUnits (oneUnit "a" (-1000))) (errors.inUnits (oneUnit "a" (-1000)))
          (some (constants.inUnits (oneUnit "a" (-1000)))) =
        .ok ⟨t.rows.map fun row => if row.name = "a" then
          { row with value := -1000 * row.value, error := |-1000| * row.error } else row⟩ ∧
      ∃ J', ofEquations sumAndDifference.reverse ⟨["x", "y"], ["a", "b"]⟩ measurement = .ok J' ∧
        J'.propagate .linear measurement errors (some constants) = .ok t := by
  obtain ⟨t, ht⟩ := exists_propagate_measured
  obtain ⟨hrows, hunit, horder⟩ := propagate_of_rewriting measured measurement
    (((∅ : Point ℝ).insert "x" (1 / 10)).insert "y" (1 / 5))
    (some ((∅ : Point ℝ).insert "a" (1 / 20)))
  simp only [ht] at hrows hunit horder
  refine ⟨_, _, t, ht, hrows _ _ ?_, hunit "a" (-1000) (by norm_num), ?_⟩
  · intro i
    split_ifs <;> norm_num
  · exact horder _ _ _ _ (List.reverse_perm _).symm ofEquations_sumAndDifference

end Jacobian

end ErrorBudget
