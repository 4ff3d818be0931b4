import ErrorBudget.Proofs.Exact.Invertible
import ErrorBudget.Proofs.Solver.Completeness
import ErrorBudget.Proofs.Solver.Steps
import ErrorBudget.Proofs.WorstCase
import Mathlib.LinearAlgebra.Matrix.ToLinearEquiv

/-!
# Exact solves without indices

What an unchecked solve over exact numbers finds, in terms of the equations and their variables
alone. To first order, a deviation of the variables without an error changes the residual of an
equation by its shift, and the given errors change it by at most its load (`Equation.shift`,
`Equation.load`). A solve succeeds exactly when the equations determine the deviations
(`Solver.exists_solveEquations_iff`), and the error that it reports for a variable is then the
greatest deviation of this variable that the given errors can make up for
(`Solver.isGreatest_of_solveEquations`).
-/

set_option autoImplicit false

namespace ErrorBudget

open Matrix

namespace Equation

/-- The change of the residual if the variables without a given error deviate. -/
noncomputable def shift (eq : Equation ℝ) (values errors : Point ℝ) (du : String → ℝ) : ℝ :=
  ∑ x ∈ eq.vars.toFinset with x ∉ errors, eq.slope values x * du x

/-- The largest change of the residual that the given errors allow. -/
noncomputable def load (eq : Equation ℝ) (values errors : Point ℝ) : ℝ :=
  ∑ x ∈ eq.vars.toFinset with x ∈ errors, |eq.slope values x| * |errors.getD x 0|

/-- The change of a residual that errors allow is not negative. -/
theorem load_nonneg (eq : Equation ℝ) (values errors : Point ℝ) : 0 ≤ eq.load values errors := by
  apply Finset.sum_nonneg
  intro x _
  positivity

end Equation

namespace Solver

/-- Whether deviations of the variables without an error may be due to the given errors. -/
def Deviates (equations : List (Equation ℝ)) (values errors : Point ℝ) (du : String → ℝ) : Prop :=
  ∀ eq ∈ equations, |eq.shift values errors du| ≤ eq.load values errors

/-- Whether the equations can be differentiated and determine the deviations of the variables
without an error. -/
structure Determines (equations : List (Equation ℝ)) (values errors : Point ℝ) : Prop where
  valued : ∀ eq ∈ equations, ∀ x ∈ eq.vars, x ∈ values
  differentiable : ∀ eq ∈ equations, ∀ x ∈ eq.vars, ∃ d, eq.partialAt x values = .ok d
  square : (Partition.ofEquations equations values errors).unknown.length = equations.length
  injective : ∀ du : String → ℝ, (∀ eq ∈ equations, eq.shift values errors du = 0) →
    ∀ x ∈ (Partition.ofEquations equations values errors).unknown, du x = 0

end Solver

section Names

variable {names : List String} {f : String → ℝ} {s : Finset String}

/-- A sum over the columns of some names is one over the names that count. -/
theorem sum_get_eq (hnodup : names.Nodup) (hs : s ⊆ names.toFinset)
    (hzero : ∀ x ∈ names, x ∉ s → f x = 0) :
    ∑ j : Fin names.length, f (names.get j) = ∑ x ∈ s, f x :=
  calc ∑ j : Fin names.length, f (names.get j)
    _ = (names.map f).sum := Fin.sum_univ_fun_getElem names f
    _ = ∑ x ∈ names.toFinset, f x := (List.sum_toFinset f hnodup).symm
    _ = ∑ x ∈ s, f x := by
      refine (Finset.sum_subset hs ?_).symm
      intro x hx
      exact hzero x (List.mem_toFinset.mp hx)

/-- Numbers for the columns of some names as numbers for the names. -/
theorem exists_comp_get (hnodup : names.Nodup) (v : Fin names.length → ℝ) :
    ∃ du : String → ℝ, ∀ j, du (names.get j) = v j := by
  refine ⟨Function.extend names.get v 0, ?_⟩
  intro j
  exact (List.nodup_iff_injective_get.mp hnodup).extend_apply v 0 j

end Names

namespace Partition

variable {α : Type} {equations : List (Equation α)} {values errors : Point α} {x : String}

/-- Unknown is a variable of an equation that has a value and no error. -/
theorem mem_unknown_ofEquations : x ∈ (ofEquations equations values errors).unknown ↔
    (∃ eq ∈ equations, x ∈ eq.vars) ∧ x ∈ values ∧ x ∉ errors :=
  mem_unknown.trans (and_congr_left' EquationSet.mem_varsOf)

/-- Known is a variable of an equation that has an error. -/
theorem mem_known_ofEquations (values : Point α) : x ∈ (ofEquations equations values errors).known ↔
    (∃ eq ∈ equations, x ∈ eq.vars) ∧ x ∈ errors :=
  mem_known.trans (and_congr_left' EquationSet.mem_varsOf)

/-- No variable is unknown twice. -/
theorem nodup_unknown : (ofEquations equations values errors).unknown.Nodup :=
  (List.nodup_append.mp (nodup_columns values errors _)).1

/-- No variable is known twice. -/
theorem nodup_known (values : Point α) : (ofEquations equations values errors).known.Nodup :=
  (List.nodup_append.mp (nodup_columns values errors _)).2.1

end Partition

namespace Jacobian

/-- A Jacobian of the slopes of some equations, with all their variables among its columns. -/
structure HoldsSlopes (J : Jacobian ℝ) (row : Fin J.equations → Equation ℝ)
    (values errors : Point ℝ) : Prop where
  unknownBlock : ∀ i j, J.unknownBlock i j = (row i).slope values (J.unknown.get j)
  knownBlock : ∀ i j, J.knownBlock i j = (row i).slope values (J.known.get j)
  nodup_unknown : J.unknown.Nodup
  nodup_known : J.known.Nodup
  mem_unknown : ∀ i, ∀ x ∈ (row i).vars, x ∉ errors → x ∈ J.unknown
  mem_known : ∀ i, ∀ x ∈ (row i).vars, x ∈ errors → x ∈ J.known
  not_given : ∀ x ∈ J.unknown, x ∉ errors
  given : ∀ x ∈ J.known, x ∈ errors

namespace HoldsSlopes

variable {J : Jacobian ℝ} {row : Fin J.equations → Equation ℝ} {values errors : Point ℝ}

/-- The columns of the unknown variables take deviations to the shifts of the equations. -/
theorem mulVec_eq_shift (h : J.HoldsSlopes row values errors) (du : String → ℝ)
    (i : Fin J.equations) :
    (J.unknownBlock.toMatrix *ᵥ fun j => du (J.unknown.get j)) i =
      (row i).shift values errors du := by
  have hsum : ∑ j : Fin J.unknown.length,
      (row i).slope values (J.unknown.get j) * du (J.unknown.get j) =
        (row i).shift values errors du := by
    refine sum_get_eq (f := fun x => (row i).slope values x * du x) h.nodup_unknown ?_ ?_
    · intro x hx
      obtain ⟨hvar, herror⟩ := Finset.mem_filter.mp hx
      exact List.mem_toFinset.mpr (h.mem_unknown i x (List.mem_toFinset.mp hvar) herror)
    · intro x hx hnot
      have hvar : x ∉ (row i).vars := by simpa [h.not_given x hx] using hnot
      rw [Equation.slope_of_not_mem hvar, zero_mul]
  rw [← hsum]
  show ∑ j, J.unknownBlock i j * du (J.unknown.get j) = _
  apply Finset.sum_congr rfl
  intro j _
  rw [h.unknownBlock]

/-- The magnitudes of the columns of the known variables take errors to the loads of the
equations. -/
theorem sum_eq_load (h : J.HoldsSlopes row values errors) (i : Fin J.equations) :
    ∑ j, |J.knownBlock i j| * |errors.getD (J.known.get j) 0| = (row i).load values errors := by
  have hsum : ∑ j : Fin J.known.length,
      |(row i).slope values (J.known.get j)| * |errors.getD (J.known.get j) 0| =
        (row i).load values errors := by
    refine sum_get_eq (f := fun x => |(row i).slope values x| * |errors.getD x 0|) h.nodup_known
      ?_ ?_
    · intro x hx
      obtain ⟨hvar, herror⟩ := Finset.mem_filter.mp hx
      exact List.mem_toFinset.mpr (h.mem_known i x (List.mem_toFinset.mp hvar) herror)
    · intro x hx hnot
      have hvar : x ∉ (row i).vars := by simpa [h.given x hx] using hnot
      rw [Equation.slope_of_not_mem hvar, abs_zero, zero_mul]
  rw [← hsum]
  apply Finset.sum_congr rfl
  intro j _
  rw [h.knownBlock]

end HoldsSlopes

/-- A square Jacobian has as many equations as unknown variables. -/
theorem IsSquare.length_eq {J : Jacobian ℝ} (square : J.IsSquare) :
    J.equations = J.unknown.length := square

/-- The columns of the unknown variables, with the rows numbered like the unknown variables. -/
def squareBlock (J : Jacobian ℝ) (square : J.IsSquare) :
    Matrix (Fin J.unknown.length) (Fin J.unknown.length) ℝ :=
  (J.unknownBlock.castRows square.length_eq).toMatrix

/-- Over exact numbers the inverse is used if there is one. -/
theorem exists_inverse?_iff {J : Jacobian ℝ} {square : J.IsSquare} :
    (∃ B, J.inverse? square = some B) ↔ (J.squareBlock square).det ≠ 0 := by
  have hfinite (B : Mat ℝ J.unknown.length J.unknown.length) : B.all Scalar.isFinite = true := by
    simp only [Mat.all, Vector.all_eq_true]
    exact fun _ _ _ _ => rfl
  simp only [inverse?, inverseBy?, Option.filter_eq_some_iff, hfinite, and_true]
  exact Mat.exists_inverse?_iff

/-- The inverse that propagation uses is an inverse of the square block. -/
theorem inverse?_mul_squareBlock {J : Jacobian ℝ} {square : J.IsSquare}
    {B : Mat ℝ J.unknown.length J.unknown.length} (hB : J.inverse? square = some B) :
    B.toMatrix * J.squareBlock square = 1 := by
  rw [squareBlock, Mat.toMatrix_castRows]
  exact inverse?_mul hB

namespace HoldsSlopes

variable {J : Jacobian ℝ} {row : Fin J.equations → Equation ℝ} {values errors : Point ℝ}
  {square : J.IsSquare} (h : J.HoldsSlopes row values errors)

include h

/-- The square block takes deviations to the shifts of the equations. -/
theorem squareBlock_mulVec (square : J.IsSquare) (du : String → ℝ) (i : Fin J.unknown.length) :
    (J.squareBlock square *ᵥ fun j => du (J.unknown.get j)) i =
      (row (i.cast square.length_eq.symm)).shift values errors du := by
  rw [← h.mulVec_eq_shift, squareBlock, Mat.toMatrix_castRows]
  rfl

/-- There is an inverse if the equations determine the deviations. -/
theorem det_ne_zero_of_injective
    (hinjective : ∀ du : String → ℝ, (∀ i, (row i).shift values errors du = 0) →
      ∀ x ∈ J.unknown, du x = 0) : (J.squareBlock square).det ≠ 0 := by
  intro hdet
  obtain ⟨v, hv, hzero⟩ := Matrix.exists_mulVec_eq_zero_iff.mpr hdet
  obtain ⟨du, hdu⟩ := exists_comp_get h.nodup_unknown v
  obtain rfl : (fun j => du (J.unknown.get j)) = v := funext hdu
  apply hv
  ext j
  refine hinjective du ?_ _ (List.get_mem ..)
  intro i
  exact (h.squareBlock_mulVec square du (i.cast square.length_eq)).symm.trans
    (congrFun hzero (i.cast square.length_eq))

variable {B : Mat ℝ J.unknown.length J.unknown.length} (hB : J.inverse? square = some B)

include hB

/-- Deviations that shift no equation are zero, if there is an inverse. -/
theorem injective_of_inverse? {du : String → ℝ} (hdu : ∀ i, (row i).shift values errors du = 0) :
    ∀ x ∈ J.unknown, du x = 0 := by
  intro x hx
  have hzero : (J.squareBlock square *ᵥ fun j => du (J.unknown.get j)) = 0 := by
    ext i
    exact (h.squareBlock_mulVec square du i).trans (hdu _)
  obtain ⟨j, rfl⟩ := List.get_of_mem hx
  have hv := congrArg (fun v => (B.toMatrix *ᵥ v) j) hzero
  simpa [mulVec_mulVec, inverse?_mul_squareBlock hB] using hv

/-- Whatever the shifts are to be, some deviations bring them about. -/
theorem exists_shift_eq (c : Fin J.equations → ℝ) :
    ∃ du : String → ℝ, (∀ i, (row i).shift values errors du = c i) ∧
      ∀ j, du (J.unknown.get j) = (B.toMatrix *ᵥ fun i => c (i.cast square.length_eq.symm)) j := by
  obtain ⟨du, hdu⟩ :=
    exists_comp_get h.nodup_unknown (B.toMatrix *ᵥ fun i => c (i.cast square.length_eq.symm))
  refine ⟨du, ?_, hdu⟩
  intro i
  have hmul : J.squareBlock square * B.toMatrix = 1 :=
    mul_eq_one_comm.mp (inverse?_mul_squareBlock hB)
  have hrow := h.squareBlock_mulVec square du (i.cast square.length_eq)
  rw [funext hdu, mulVec_mulVec, hmul, one_mulVec] at hrow
  exact hrow.symm

/-- The weight of an unknown variable is the greatest deviation that the given errors allow. -/
theorem isGreatest_unknownWeights (i : Fin J.unknown.length) :
    IsGreatest {d | ∃ du : String → ℝ,
        (∀ i, |(row i).shift values errors du| ≤ (row i).load values errors) ∧
          du (J.unknown.get i) = d}
      ((J.unknownWeights square B .linear errors none).get i) := by
  have hweight : (J.unknownWeights square B .linear errors none).get i =
      ∑ k, |B i k| * (row (k.cast square.length_eq.symm)).load values errors := by
    rw [unknownWeights_get]
    apply Finset.sum_congr rfl
    intro k _
    rw [← h.sum_eq_load]
    simp [knownWeights_get, component]
  have hload (k : Fin J.equations) : 0 ≤ (row k).load values errors := (row k).load_nonneg ..
  rw [hweight]
  constructor
  · -- Every equation is shifted as far as its load allows, in the direction that counts.
    obtain ⟨du, hshift, hdu⟩ := h.exists_shift_eq hB fun k =>
      if 0 ≤ B i (k.cast square.length_eq) then (row k).load values errors
      else -(row k).load values errors
    refine ⟨du, ?_, (hdu i).trans ?_⟩
    · intro k
      rw [hshift k]
      split_ifs
      · rw [abs_of_nonneg (hload k)]
      · rw [abs_neg, abs_of_nonneg (hload k)]
    · show ∑ k, B i k * _ = _
      apply Finset.sum_congr rfl
      intro k _
      simp only [Fin.cast_cast, Fin.cast_eq_self]
      split_ifs with hsign
      · rw [abs_of_nonneg hsign]
      · rw [abs_of_neg (not_le.mp hsign), neg_mul, mul_neg]
  · rintro d ⟨du, hbound, rfl⟩
    have hsolved : du (J.unknown.get i) =
        (B.toMatrix *ᵥ fun k => (row (k.cast square.length_eq.symm)).shift values errors du) i := by
      rw [← funext (h.squareBlock_mulVec square du), mulVec_mulVec, inverse?_mul_squareBlock hB,
        one_mulVec]
    rw [hsolved]
    exact (le_abs_self _).trans (abs_mulVec_le B.toMatrix (fun k => hbound _) i)

end HoldsSlopes

section Blocks

variable {equations : List (Equation ℝ)} {values : Point ℝ} {p : Partition}

/-- An entry in the columns of the unknown variables is the slope of its equation. -/
theorem unknownBlock_ofSlopes (i : Fin (ofSlopes equations p values).equations)
    (j : Fin p.unknown.length) : (ofSlopes equations p values).unknownBlock i j =
      (equations.get (i.cast (equations_ofSlopes equations p values))).slope values
        (p.unknown.get j) := by
  refine (Mat.ofFn_apply ..).trans ((cells_ofSlopes i _).trans ?_)
  congr 1
  exact List.getElem_append_left j.isLt

/-- An entry in the columns of the known variables is the slope of its equation. -/
theorem knownBlock_ofSlopes (i : Fin (ofSlopes equations p values).equations)
    (j : Fin p.known.length) : (ofSlopes equations p values).knownBlock i j =
      (equations.get (i.cast (equations_ofSlopes equations p values))).slope values
        (p.known.get j) := by
  refine (Mat.ofFn_apply ..).trans ((cells_ofSlopes i _).trans ?_)
  congr 1
  refine (List.getElem_append_right (Nat.le_add_right p.unknown.length j)).trans ?_
  congr 1
  exact Nat.add_sub_cancel_left ..

end Blocks

/-- A Jacobian that is made of slopes holds them. -/
theorem holdsSlopes_ofSlopes {equations : List (Equation ℝ)} {values : Point ℝ} (errors : Point ℝ)
    (hvalued : ∀ eq ∈ equations, ∀ x ∈ eq.vars, x ∈ values) :
    (ofSlopes equations (Partition.ofEquations equations values errors) values).HoldsSlopes
      (fun i => equations.get (i.cast (equations_ofSlopes equations _ values))) values errors where
  unknownBlock i j := unknownBlock_ofSlopes i j
  knownBlock i j := knownBlock_ofSlopes i j
  nodup_unknown := Partition.nodup_unknown
  nodup_known := Partition.nodup_known values
  mem_unknown _ x hx herror := Partition.mem_unknown_ofEquations.mpr
    ⟨⟨_, List.get_mem .., hx⟩, hvalued _ (List.get_mem ..) x hx, herror⟩
  mem_known _ _ hx herror :=
    (Partition.mem_known_ofEquations values).mpr ⟨⟨_, List.get_mem .., hx⟩, herror⟩
  not_given _ hx := (Partition.mem_unknown_ofEquations.mp hx).2.2
  given _ hx := ((Partition.mem_known_ofEquations values).mp hx).2

end Jacobian

namespace Solver

variable {equations : List (Equation ℝ)} {values errors : Point ℝ} {tolerance : ℝ}
  {options : SolveOptions ℝ} {t : Table ℝ}

/-- The rows of a Jacobian stand for the equations. -/
theorem forall_row_iff (p : Partition) (values : Point ℝ) {P : Equation ℝ → Prop} :
    (∀ i : Fin (Jacobian.ofSlopes equations p values).equations,
      P (equations.get (i.cast (Jacobian.equations_ofSlopes equations p values)))) ↔
      ∀ eq ∈ equations, P eq := by
  constructor
  · intro h eq heq
    obtain ⟨i, rfl⟩ := List.get_of_mem heq
    exact h (i.cast (Jacobian.equations_ofSlopes equations p values).symm)
  · intro h i
    exact h _ (List.get_mem ..)

/-- Equations that determine the deviations have a square Jacobian with an inverse. -/
theorem Determines.exists_inverse? (h : Determines equations values errors) :
    ∃ (square : (Jacobian.ofSlopes equations (Partition.ofEquations equations values errors)
      values).IsSquare) (B : _), Jacobian.inverse? _ square = some B := by
  have hslopes := Jacobian.holdsSlopes_ofSlopes errors h.valued
  refine ⟨(Jacobian.equations_ofSlopes ..).trans h.square.symm, Jacobian.exists_inverse?_iff.mpr ?_⟩
  apply hslopes.det_ne_zero_of_injective
  intro du hdu
  exact h.injective du ((forall_row_iff _ values).mp hdu)

/-- An unchecked solve succeeds exactly if the equations determine the deviations. -/
theorem exists_solveEquations_iff (hcheck : options.check = false) :
    (∃ t, solveEquations tolerance equations values errors options = .ok t) ↔
      Determines equations values errors := by
  constructor
  · rintro ⟨t, ht⟩
    obtain ⟨hsquare, hrows, hpropagate⟩ := (solveEquations_eq_ok_iff hcheck).mp ht
    obtain ⟨square, B, hB, hcolumns, -⟩ := Jacobian.propagate_eq_ok_iff.mp hpropagate
    have hvalued : ∀ eq ∈ equations, ∀ x ∈ eq.vars, x ∈ values := by
      intro eq heq x hx
      exact hcolumns x ((hrows eq heq).columns x hx)
    refine ⟨hvalued, fun eq heq => (hrows eq heq).slopes, hsquare, ?_⟩
    intro du hdu
    have hslopes := Jacobian.holdsSlopes_ofSlopes errors hvalued
    exact hslopes.injective_of_inverse? hB ((forall_row_iff _ values).mpr hdu)
  · intro h
    obtain ⟨square, B, hB⟩ := h.exists_inverse?
    refine ⟨_, (solveEquations_eq_ok_iff hcheck).mpr ⟨h.square, ?_,
      Jacobian.propagate_eq_ok_iff.mpr ⟨square, B, hB, ?_, rfl⟩⟩⟩
    · intro eq heq
      refine ⟨?_, h.differentiable eq heq⟩
      intro x hx
      exact Partition.mem_columns_of_mem_values heq hx (h.valued eq heq x hx)
    · intro x hx
      obtain ⟨eq, heq, hvar⟩ := EquationSet.mem_varsOf.mp (Partition.mem_of_mem_columns hx)
      exact h.valued eq heq x hvar

/-- Whatever the shifts of the equations are to be, some deviations bring them about. -/
theorem Determines.exists_shift_eq (h : Determines equations values errors)
    (c : Equation ℝ → ℝ) :
    ∃ du : String → ℝ, ∀ eq ∈ equations, eq.shift values errors du = c eq := by
  obtain ⟨square, B, hB⟩ := h.exists_inverse?
  have hslopes := Jacobian.holdsSlopes_ofSlopes errors h.valued
  obtain ⟨du, hdu, -⟩ := hslopes.exists_shift_eq hB fun i => c (equations.get (i.cast _))
  exact ⟨du, (forall_row_iff _ values (P := fun eq => eq.shift values errors du = c eq)).mp hdu⟩

/-- The calculated rows are those of the unknown variables. -/
theorem mem_unknown_iff_exists_row (hcheck : options.check = false)
    (h : solveEquations tolerance equations values errors options = .ok t) {x : String} :
    x ∈ (Partition.ofEquations equations values errors).unknown ↔
      ∃ row, (row ∈ t.rows ∧ row.isCalculated) ∧ row.name = x := by
  obtain ⟨-, -, hpropagate⟩ := (solveEquations_eq_ok_iff hcheck).mp h
  obtain ⟨square, B, -, hrows⟩ := Jacobian.exists_calculated_of_propagate hpropagate
  simp only [hrows]
  constructor
  · intro hx
    obtain ⟨i, rfl⟩ := List.get_of_mem hx
    exact ⟨_, ⟨i, rfl⟩, rfl⟩
  · rintro ⟨_, ⟨i, rfl⟩, rfl⟩
    exact List.get_mem ..

/-- The reported error of a variable is its greatest deviation that the given errors allow. -/
theorem isGreatest_of_solveEquations (hcheck : options.check = false)
    (hlinear : options.combination = .linear) (hconstants : options.constants = none)
    (h : solveEquations tolerance equations values errors options = .ok t) {row : Row ℝ}
    (hrow : row ∈ t.rows ∧ row.isCalculated) :
    IsGreatest {d | ∃ du : String → ℝ, Deviates equations values errors du ∧ du row.name = d}
      row.error := by
  obtain ⟨-, -, hpropagate⟩ := (solveEquations_eq_ok_iff hcheck).mp h
  rw [hlinear, hconstants] at hpropagate
  obtain ⟨square, B, hB, hrows⟩ := Jacobian.exists_calculated_of_propagate hpropagate
  obtain ⟨i, rfl⟩ := (hrows row).mp hrow
  have hvalued := ((exists_solveEquations_iff hcheck).mp ⟨t, h⟩).valued
  have hslopes := Jacobian.holdsSlopes_ofSlopes errors hvalued
  have hdeviates (du : String → ℝ) : Deviates equations values errors du ↔ _ :=
    (forall_row_iff (Partition.ofEquations equations values errors) values
      (P := fun eq => |eq.shift values errors du| ≤ eq.load values errors)).symm
  simp only [hdeviates]
  exact hslopes.isGreatest_unknownWeights hB i

end Solver

end ErrorBudget
