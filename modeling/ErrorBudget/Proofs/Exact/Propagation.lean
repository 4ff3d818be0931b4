import ErrorBudget.Propagation
import ErrorBudget.Proofs.Exact.Matrix

/-!
# Exact propagation

The quantities that propagation adds up, over exact numbers: a constant error component that is not
given counts as zero, whether a variable has none, no variable has one, or there are none at all.
-/

set_option autoImplicit false

namespace ErrorBudget

namespace Combination

/-- Tolerances are weighed by their magnitude. -/
@[simp] theorem weigh_linear (x : ℝ) : linear.weigh x = |x| := rfl

/-- Standard deviations are weighed by their square. -/
@[simp] theorem weigh_quadrature (x : ℝ) : quadrature.weigh x = x * x := rfl

/-- An error of zero has no weight. -/
@[simp] theorem weigh_zero (how : Combination) : how.weigh (0 : ℝ) = 0 := by
  cases how <;> simp

/-- The weight of one variable in a column of errors. -/
theorem column_get {α : Type} [Scalar α] (how : Combination) (errors : Point α)
    (names : List String) (i : Fin names.length) :
    (how.column errors names).get i = how.weigh (errors.getD (names.get i) 0) :=
  Vector.getElem_ofFn i.isLt

end Combination

namespace Jacobian

/-- The constant error component of a variable. -/
def component (constants : Option (Point ℝ)) (x : String) : ℝ :=
  constants.elim 0 fun c => c.getD x 0

/-- Components that are left out are zero. -/
theorem component_eq (constants : Option (Point ℝ)) (x : String) :
    component constants x = (someConstants? constants).elim 0 fun c => c.getD x 0 := by
  rcases constants with _ | c
  · rfl
  · rw [someConstants?, Option.filter_some]
    split_ifs with hsome
    · rfl
    · obtain rfl : c = ∅ := Std.ExtTreeMap.isEmpty_iff.mp (by simpa using hsome)
      simp [component]

/-- The weight of a known variable is that of its error and that of its constant component. -/
theorem knownWeights_get (J : Jacobian ℝ) (how : Combination) (errors : Point ℝ)
    (constants : Option (Point ℝ)) (j : Fin J.known.length) :
    (J.knownWeights how errors constants).get j = how.weigh (errors.getD (J.known.get j) 0) +
      how.weigh (component constants (J.known.get j)) := by
  rw [component_eq]
  unfold knownWeights
  cases someConstants? constants with
  | none =>
    have hgiven := how.column_get errors J.known j
    simpa using hgiven
  | some c =>
    rw [Mat.addVec_get, Combination.column_get, Combination.column_get]
    rfl

/-- The sources of the errors, as they enter the equations: the known variables through their
columns, and the constant components of the unknown variables through theirs. -/
def sources {α : Type} [Scalar α] (J : Jacobian α) (how : Combination) (errors : Point α)
    (constants : Option (Point α)) : Vector α J.equations :=
  let known := (J.knownBlock.map Scalar.abs).mulVec (J.knownWeights how errors constants)
  match someConstants? constants with
  | some c => Mat.addVec known ((J.unknownBlock.map Scalar.abs).mulVec (how.column c J.unknown))
  | none => known

/-- The weights of the unknown variables are the sources, multiplied by the magnitudes of the
inverse. -/
theorem unknownWeights_eq {α : Type} [Scalar α] (J : Jacobian α) (square : J.IsSquare)
    (inverse : Mat α J.unknown.length J.unknown.length) (how : Combination) (errors : Point α)
    (constants : Option (Point α)) : J.unknownWeights square inverse how errors constants =
      (inverse.map Scalar.abs).mulVec ((J.sources how errors constants).cast square) := rfl

/-- The sources do not depend on how their rows are counted. -/
theorem sources_cast_get {α : Type} [Scalar α] (J : Jacobian α) (square : J.IsSquare)
    (how : Combination) (errors : Point α) (constants : Option (Point α))
    (k : Fin J.unknown.length) : ((J.sources how errors constants).cast square).get k =
      (J.sources how errors constants).get (k.cast square.symm) :=
  Vector.getElem_cast k.isLt

/-- The source of an equation collects the errors of the known variables and the constant components
of the unknown ones. -/
theorem sources_get (J : Jacobian ℝ) (how : Combination) (errors : Point ℝ)
    (constants : Option (Point ℝ)) (k : Fin J.equations) :
    (J.sources how errors constants).get k =
      ∑ j, |J.knownBlock k j| * (J.knownWeights how errors constants).get j +
        ∑ j, |J.unknownBlock k j| * how.weigh (component constants (J.unknown.get j)) := by
  have habs : (Scalar.abs : ℝ → ℝ) = abs := rfl
  simp only [component_eq]
  unfold sources
  cases someConstants? constants with
  | none => simpa [habs] using Mat.mulVec_get (J.knownBlock.map abs) _ k
  | some c =>
    have hknown := Mat.mulVec_get (J.knownBlock.map abs) (J.knownWeights how errors constants) k
    have hown := Mat.mulVec_get (J.unknownBlock.map abs) (how.column c J.unknown) k
    simp only [Mat.map_apply, Combination.column_get] at hknown hown
    rw [Mat.addVec_get, habs, hknown, hown]
    rfl

/-- The sources reach an unknown variable through the inverse. -/
theorem unknownWeights_eq_sum (J : Jacobian ℝ) (square : J.IsSquare)
    (inverse : Mat ℝ J.unknown.length J.unknown.length) (how : Combination) (errors : Point ℝ)
    (constants : Option (Point ℝ)) (i : Fin J.unknown.length) :
    (J.unknownWeights square inverse how errors constants).get i =
      ∑ k, |inverse i k| * (J.sources how errors constants).get (k.cast square.symm) := by
  rw [unknownWeights_eq, Mat.mulVec_get]
  simp only [Mat.map_apply, sources_cast_get]
  rfl

/-- The sources of an error enter through the columns of their variables, and reach an unknown
variable through the inverse; every coefficient is taken with its magnitude. -/
theorem unknownWeights_get (J : Jacobian ℝ) (square : J.IsSquare)
    (inverse : Mat ℝ J.unknown.length J.unknown.length) (how : Combination) (errors : Point ℝ)
    (constants : Option (Point ℝ)) (i : Fin J.unknown.length) :
    (J.unknownWeights square inverse how errors constants).get i =
      ∑ k, |inverse i k| *
        (∑ j, |J.knownBlock (k.cast square.symm) j| * (J.knownWeights how errors constants).get j +
          ∑ j, |J.unknownBlock (k.cast square.symm) j| *
            how.weigh (component constants (J.unknown.get j))) := by
  simp only [unknownWeights_eq_sum, sources_get]

end Jacobian

end ErrorBudget
