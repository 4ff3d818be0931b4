import ErrorBudget.Proofs.Double.Zero
import ErrorBudget.Proofs.Solver.Finiteness
import ErrorBudget.Proofs.Solver.Split

/-!
# What a solver reads of its inputs

Of values and errors a solver reads what is given for the variables of the active equations, and
whether another name is that of a restricted constant. So inputs that agree there have the same
checks, the same Jacobian and the same results (`Solver.answers_of_agreeOn`). This supposes that
equations given by functions read nothing but their variables, as nothing keeps them from reading
more.

A constant component that is not given counts as zero, up to one case: if there are any constant
components at all, the derivatives by the unknown variables are multiplied by theirs, also by those
that are zero. Where such a derivative is infinite, the product is undefined
(`Solver.solve_ne_of_agreeOn`).
-/

set_option autoImplicit false

namespace ErrorBudget

/-- Inputs that agree on some names. Other names for which something is given are not restricted. -/
structure AgreeOn {α : Type} (S : String → Prop) (values errors values' errors' : Point α) :
    Prop where
  sameValue : ∀ x, S x → values[x]? = values'[x]?
  sameError : ∀ x, S x → errors[x]? = errors'[x]?
  others : ∀ x, ¬S x → x ∈ values ∨ x ∈ errors ∨ x ∈ values' ∨ x ∈ errors' →
    isRestrictedName x = false

/-- The constant component of a variable: zero if it has none, or if there are none. -/
def constantOf {α : Type} [Scalar α] (constants : Option (Point α)) (x : String) : α :=
  (constants.getD ∅).getD x 0

/-- Residuals that fail alike at two points are reported alike. -/
theorem Validation.residualFailuresFrom_congr {α : Type} [Scalar α] {tolerance : α}
    {p q : Point α} {equations : List (Equation α)} (h : ∀ eq ∈ equations, ∀ index,
      residualFailure? tolerance p index eq = residualFailure? tolerance q index eq)
    (index : Nat) : residualFailuresFrom tolerance p index equations =
      residualFailuresFrom tolerance q index equations := by
  induction equations generalizing index with
  | nil => rfl
  | cons eq eqs ih =>
    obtain ⟨heq, hrest⟩ := List.forall_mem_cons.mp h
    rw [residualFailuresFrom, residualFailuresFrom, heq, ih hrest]

namespace AgreeOn

variable {α : Type} {values errors values' errors' : Point α} {S : String → Prop}

/-- Agreement on some variables depends only on which variables these are. -/
theorem congr {S' : String → Prop} (h : AgreeOn S values errors values' errors')
    (hS : ∀ x, S x ↔ S' x) : AgreeOn S' values errors values' errors' where
  sameValue x hx := h.sameValue x ((hS x).mpr hx)
  sameError x hx := h.sameError x ((hS x).mpr hx)
  others x hx := h.others x fun hmem => hx ((hS x).mp hmem)

/-- The same restricted names are refused. -/
theorem checkRestricted_eq (h : AgreeOn S values errors values' errors') :
    Validation.checkRestricted values errors = Validation.checkRestricted values' errors' := by
  have hnames : restrictedNames (values.keys ++ errors.keys) =
      restrictedNames (values'.keys ++ errors'.keys) := by
    apply Std.ExtTreeSet.ext_mem
    intro x
    simp only [restrictedNames, NameSet.mem_ofNames, List.mem_filter, List.mem_append,
      Std.ExtTreeMap.mem_keys]
    by_cases hx : S x
    · rw [NameMap.mem_congr (h.sameValue x hx), NameMap.mem_congr (h.sameError x hx)]
    · have hother := h.others x hx
      constructor
      · rintro ⟨hmem, hrestricted⟩
        rw [hother (hmem.elim .inl fun hx => .inr (.inl hx))] at hrestricted
        contradiction
      · rintro ⟨hmem, hrestricted⟩
        rw [hother (hmem.elim (fun hx => .inr (.inr (.inl hx))) fun hx => .inr (.inr (.inr hx)))]
          at hrestricted
        contradiction
  rw [Validation.checkRestricted, Validation.checkRestricted, hnames]

variable {equations : List (Equation α)}

/-- The variables of an equation have the same values. -/
theorem sameValue_of_mem
    (h : AgreeOn (· ∈ EquationSet.varsOf equations) values errors values' errors')
    {eq : Equation α} (heq : eq ∈ equations) : ∀ x ∈ eq.vars, values[x]? = values'[x]? :=
  fun x hx => h.sameValue x (EquationSet.mem_varsOf.mpr ⟨eq, heq, hx⟩)

/-- The variables are divided in the same way. -/
theorem partition_eq
    (h : AgreeOn (· ∈ EquationSet.varsOf equations) values errors values' errors') :
    Partition.ofEquations equations values errors =
      Partition.ofEquations equations values' errors' := by
  have hvalues {x : String} (hx : x ∈ (EquationSet.varsOf equations).toList) :
      x ∈ values ↔ x ∈ values' :=
    NameMap.mem_congr (h.sameValue x (Std.ExtTreeSet.mem_toList.mp hx))
  have herrors {x : String} (hx : x ∈ (EquationSet.varsOf equations).toList) :
      x ∈ errors ↔ x ∈ errors' :=
    NameMap.mem_congr (h.sameError x (Std.ExtTreeSet.mem_toList.mp hx))
  unfold Partition.ofEquations Partition.ofInputs
  congr 1
  · exact List.filter_congr fun x hx => decide_eq_decide.mpr (herrors hx)
  · exact List.filter_congr fun x hx =>
      decide_eq_decide.mpr (and_congr (hvalues hx) (not_congr (herrors hx)))

variable [Scalar α]
  (h : AgreeOn (· ∈ EquationSet.varsOf equations) values errors values' errors')
  (hfaithful : ∀ eq ∈ equations, ∃ edits, eq.IsFaithful edits)
  (hkeys : ∀ eq ∈ equations, eq.IgnoresExtraKeys)

include h hfaithful hkeys

/-- The same residuals fail at both points. -/
theorem residualFailures_eq (tolerance : α) :
    Validation.residualFailures tolerance values equations =
      Validation.residualFailures tolerance values' equations := by
  have hfailure : ∀ eq ∈ equations, ∀ index,
      Validation.residualFailure? tolerance values index eq =
        Validation.residualFailure? tolerance values' index eq := by
    intro eq heq index
    obtain ⟨edits, hedits⟩ := hfaithful eq heq
    have hvalues := h.sameValue_of_mem heq
    simp only [Validation.residualFailure?, Equation.unresolved_congr hvalues,
      Equation.evaluate_congr hvalues hedits (hkeys eq heq)]
  exact Validation.residualFailuresFrom_congr hfailure 0

/-- A check has the same outcome for both inputs. -/
theorem check_eq (tolerance : α) : Validation.check tolerance equations values errors =
    Validation.check tolerance equations values' errors' := by
  have hpartition : Partition.ofInputs values errors (EquationSet.varsOf equations) =
      Partition.ofInputs values' errors' (EquationSet.varsOf equations) := h.partition_eq
  simp only [Validation.check, h.checkRestricted_eq, h.residualFailures_eq hfaithful hkeys,
    hpartition]

/-- The Jacobian is the same at both points. -/
theorem ofEquations_eq (p : Partition) :
    Jacobian.ofEquations equations p values = Jacobian.ofEquations equations p values' := by
  have hrows : equations.mapM (Jacobian.rowOf p.columns values) =
      equations.mapM (Jacobian.rowOf p.columns values') := by
    apply mapM_congr
    intro eq heq
    obtain ⟨edits, hedits⟩ := hfaithful eq heq
    simp only [Jacobian.rowOf,
      Equation.partialAt_congr (h.sameValue_of_mem heq) hedits (hkeys eq heq)]
  rw [Jacobian.ofEquations, Jacobian.ofEquations, hrows]

end AgreeOn

namespace Combination

/-- A weight is its own absolute value. -/
theorem weigh_abs (how : Combination) (x : Float) : (how.weigh x).abs = how.weigh x := by
  cases how with
  | linear => exact Double.abs_abs x
  | quadrature =>
    change (x * x).abs = x * x
    rw [← Double.abs_mul_abs]
    exact Double.abs_mul (Double.abs_abs x) (Double.abs_abs x)

/-- An error of zero has the weight zero. -/
theorem weigh_float_zero (how : Combination) : how.weigh (0 : Float) = 0 := by
  cases how with
  | linear => exact Double.abs_zero
  | quadrature =>
    change (0 : Float) * 0 = 0
    have hproduct : Float.abs 0 * 0 = 0 := Double.mul_zero_of_isFinite rfl
    rwa [Double.abs_zero] at hproduct

/-- Columns of the same errors have the same weights. -/
theorem column_congr {α : Type} [Scalar α] (how : Combination) {p q : Point α}
    {names : List String} (h : ∀ x ∈ names, p.getD x 0 = q.getD x 0) :
    how.column p names = how.column q names := by
  unfold column
  congr 1
  funext i
  rw [h _ (names.get_mem i)]

end Combination

namespace Jacobian

/-- Constant components that are not used are as good as none. -/
theorem getD_of_someConstants?_eq_none {α : Type} {constants : Option (Point α)}
    (h : someConstants? constants = none) : constants.getD ∅ = ∅ := by
  rcases constants with _ | c
  · rfl
  · simpa [someConstants?] using h

variable (J : Jacobian Float) (how : Combination) {values values' errors errors' : Point Float}
  {constants constants' : Option (Point Float)}

/-- Constant components that are left out count as zero in the errors of the known variables. -/
theorem knownWeights_eq_addVec (errors : Point Float) (constants : Option (Point Float)) :
    J.knownWeights how errors constants =
      Mat.addVec (how.column errors J.known) (how.column (constants.getD ∅) J.known) := by
  unfold knownWeights
  cases hsome : someConstants? constants with
  | some c =>
    rw [eq_some_of_someConstants? hsome]
    rfl
  | none =>
    rw [getD_of_someConstants?_eq_none hsome]
    apply Vector.ext
    intro i hi
    change (how.column errors J.known).get ⟨i, hi⟩ = (Mat.addVec _ _).get ⟨i, hi⟩
    rw [Mat.addVec_get, Combination.column_get, Combination.column_get,
      Std.ExtTreeMap.getD_empty, Combination.weigh_float_zero,
      Double.add_zero_of_abs (how.weigh_abs _)]

/-- What the known variables add to the equations is its own magnitude. -/
theorem abs_known (errors : Point Float) (constants : Option (Point Float)) (k : Fin J.equations) :
    (((J.knownBlock.map Scalar.abs).mulVec (J.knownWeights how errors constants)).get k).abs =
      ((J.knownBlock.map Scalar.abs).mulVec (J.knownWeights how errors constants)).get k := by
  apply Double.abs_mulVec
  intro j
  rw [knownWeights_eq_addVec, Mat.addVec_get, Combination.column_get, Combination.column_get]
  exact Double.abs_add (how.weigh_abs _) (how.weigh_abs _)

/-- Constant components that are left out count as zero in the sources, too, if the derivatives that
they would be multiplied by are finite. -/
theorem sources_eq_addVec (errors : Point Float)
    (h : (someConstants? constants).isSome ∨ ∀ i j, (J.unknownBlock i j).isFinite = true) :
    J.sources how errors constants =
      Mat.addVec ((J.knownBlock.map Scalar.abs).mulVec (J.knownWeights how errors constants))
        ((J.unknownBlock.map Scalar.abs).mulVec (how.column (constants.getD ∅) J.unknown)) := by
  unfold sources
  cases hsome : someConstants? constants with
  | some c =>
    rw [eq_some_of_someConstants? hsome]
    rfl
  | none =>
    have hfinite : ∀ i j, (J.unknownBlock i j).isFinite = true := h.resolve_left (by simp [hsome])
    have hzeros (j : Fin J.unknown.length) : (how.column ∅ J.unknown).get j = (0 : Float) := by
      rw [Combination.column_get, Std.ExtTreeMap.getD_empty, Combination.weigh_float_zero]
    rw [getD_of_someConstants?_eq_none hsome]
    apply Vector.ext
    intro k hk
    change Vector.get _ ⟨k, hk⟩ = (Mat.addVec _ _).get ⟨k, hk⟩
    rw [Mat.addVec_get, Double.mulVec_of_zeros (hfinite _) hzeros,
      Double.add_zero_of_abs (J.abs_known how errors constants _)]

section Congruence

variable (herrors : ∀ x ∈ J.known, errors.getD x 0 = errors'.getD x 0)
  (hconstants : ∀ x ∈ J.columns, constantOf constants x = constantOf constants' x)

include herrors hconstants

/-- The weights of the known variables are the same for both inputs. -/
theorem knownWeights_congr :
    J.knownWeights how errors constants = J.knownWeights how errors' constants' := by
  rw [knownWeights_eq_addVec, knownWeights_eq_addVec, how.column_congr herrors,
    how.column_congr fun x hx => hconstants x (List.mem_append_right _ hx)]

variable
  (hblock : (someConstants? constants).isSome = (someConstants? constants').isSome ∨
    ∀ i j, (J.unknownBlock i j).isFinite = true)

include hblock

/-- The sources are the same for both inputs. -/
theorem sources_congr : J.sources how errors constants = J.sources how errors' constants' := by
  have hknown := J.knownWeights_congr how herrors hconstants
  have hunknown : how.column (constants.getD ∅) J.unknown =
      how.column (constants'.getD ∅) J.unknown :=
    how.column_congr fun x hx => hconstants x (List.mem_append_left _ hx)
  by_cases hsome : (someConstants? constants).isSome ∨ (someConstants? constants').isSome
  · -- Where one of them has components, so has the other, or the derivatives are finite.
    have h : (someConstants? constants).isSome ∨ ∀ i j, (J.unknownBlock i j).isFinite = true := by
      rcases hblock with hsame | hfinite
      · exact .inl (hsome.elim id fun h => hsame.trans h)
      · exact .inr hfinite
    have h' : (someConstants? constants').isSome ∨
        ∀ i j, (J.unknownBlock i j).isFinite = true := by
      rcases hblock with hsame | hfinite
      · exact .inl (hsome.elim (fun h => hsame.symm.trans h) id)
      · exact .inr hfinite
    rw [J.sources_eq_addVec how errors h, J.sources_eq_addVec how errors' h', hknown, hunknown]
  · obtain ⟨hnone, hnone'⟩ := not_or.mp hsome
    rw [Option.not_isSome_iff_eq_none] at hnone hnone'
    rw [sources, sources, hnone, hnone', hknown]

/-- Errors propagate alike from both inputs. -/
theorem propagate_congr (hvalues : ∀ x ∈ J.columns, values[x]? = values'[x]?) :
    J.propagate how values errors constants = J.propagate how values' errors' constants' := by
  have hknown := J.knownWeights_congr how herrors hconstants
  have hsources := J.sources_congr how herrors hconstants hblock
  have hrows {isCalculated : Bool} {names : List String} {weights : List Float}
      (hnames : ∀ x ∈ names, x ∈ J.columns) :
      rowsOf values isCalculated (names.zip weights) =
        rowsOf values' isCalculated (names.zip weights) := by
    apply mapM_congr
    rintro ⟨x, error⟩ hx
    have hvalue := hvalues x (hnames x (List.of_mem_zip hx).1)
    simp only [hvalue]
  by_cases square : J.IsSquare
  · cases hB : J.inverse? square with
    | none => rw [propagate_of_inverse?_eq_none hB, propagate_of_inverse?_eq_none hB]
    | some B =>
      rw [propagate_of_inverse?_eq_some hB, propagate_of_inverse?_eq_some hB, unknownWeights_eq,
        unknownWeights_eq, hsources, hknown,
        hrows fun x hx => List.mem_append_left _ hx,
        hrows fun x hx => List.mem_append_right _ hx]
  · rw [propagate_of_not_isSquare square, propagate_of_not_isSquare square]

end Congruence

end Jacobian

namespace Solver

variable {values values' errors errors' : Point Float}

/-- From inputs that agree on the variables the same errors are propagated. -/
theorem solveUnchecked_eq_of_agreeOn {equations : List (Equation Float)}
    (h : AgreeOn (· ∈ EquationSet.varsOf equations) values errors values' errors')
    (hfaithful : ∀ eq ∈ equations, ∃ edits, eq.IsFaithful edits)
    (hkeys : ∀ eq ∈ equations, eq.IgnoresExtraKeys) {options : SolveOptions Float}
    {constants' : Option (Point Float)}
    (hconstants : ∀ x ∈ EquationSet.varsOf equations,
      constantOf options.constants x = constantOf constants' x)
    (hblock : (Jacobian.someConstants? options.constants).isSome =
        (Jacobian.someConstants? constants').isSome ∨
      ∀ J, Jacobian.ofEquations equations (Partition.ofEquations equations values errors) values =
        .ok J → ∀ i j, (J.unknownBlock i j).isFinite = true) :
    solveUnchecked equations values errors options =
      solveUnchecked equations values' errors' { options with constants := constants' } := by
  unfold solveUnchecked
  rw [← h.partition_eq, ← h.ofEquations_eq hfaithful hkeys]
  apply bind_congr_of_ok
  intro _ _
  apply bind_congr_of_ok
  intro J hJ
  rw [mapError_eq_ok_iff] at hJ
  have hvar {x : String} (hx : x ∈ J.columns) : x ∈ EquationSet.varsOf equations := by
    obtain ⟨-, rfl⟩ := Jacobian.ofEquations_eq_ok_iff.mp hJ
    exact Partition.mem_of_mem_columns hx
  apply J.propagate_congr
  · intro x hx
    exact NameMap.getD_congr (h.sameError x (hvar (List.mem_append_right _ hx))) 0
  · exact fun x hx => hconstants x (hvar hx)
  · exact hblock.imp_right fun hfinite => hfinite J hJ
  · exact fun x hx => h.sameValue x (hvar hx)

/-- The equations that an answer is about; there are none if the combination is not known. -/
def active {α : Type} (s : Solver α) (combo : Option String) : List (Equation α) :=
  (s.equations.select combo).toOption.getD []

/-- Whether a variable is free in one of the equations that an answer is about. -/
def IsActive {α : Type} (s : Solver α) (combo : Option String) (x : String) : Prop :=
  ∃ eq ∈ s.active combo, eq.IsFree x

section Active

variable {α : Type} [Scalar α] {s : Solver α} {combo : Option String}
  {equations : List (Equation α)} {x : String}

omit [Scalar α] in
/-- The active equations are those that are selected. -/
theorem active_of_select (hselect : s.equations.select combo = .ok equations) :
    s.active combo = equations := by
  rw [active, hselect]
  rfl

/-- The free variables are the variables that the equations have been stored with. -/
theorem Reachable.isActive_iff (hs : s.Reachable)
    (hselect : s.equations.select combo = .ok equations) :
    s.IsActive combo x ↔ x ∈ EquationSet.varsOf equations := by
  rw [IsActive, active_of_select hselect, EquationSet.mem_varsOf]
  exact exists_congr fun eq => and_congr_right fun heq => (hs.mem_vars hselect heq x).symm

end Active

variable {s : Solver Float} {options : SolveOptions Float} {constants' : Option (Point Float)}

/-- A solver gives the same answers about inputs that agree on the free variables of the active
equations. -/
theorem answers_of_agreeOn (hs : s.Reachable)
    (hkeys : ∀ eq ∈ s.active options.combo, eq.IgnoresExtraKeys)
    (h : AgreeOn (s.IsActive options.combo) values errors values' errors')
    (hconstants : ∀ x, s.IsActive options.combo x →
      constantOf options.constants x = constantOf constants' x) :
    s.check values errors options.combo = s.check values' errors' options.combo ∧
    s.jacobian values errors options.combo = s.jacobian values' errors' options.combo ∧
    ((Jacobian.someConstants? options.constants).isSome =
          (Jacobian.someConstants? constants').isSome ∨
        (∀ J, s.jacobian values errors options.combo = .ok J →
          ∀ i j, (J.unknownBlock i j).isFinite = true) →
      s.solve values errors options =
        s.solve values' errors' { options with constants := constants' }) := by
  -- All three questions select the active equations first, and these see the same inputs.
  have hactive {equations : List (Equation Float)}
      (hselect : s.equations.select options.combo = .ok equations) :
      AgreeOn (· ∈ EquationSet.varsOf equations) values errors values' errors' ∧
        (∀ eq ∈ equations, ∃ edits, eq.IsFaithful edits) ∧
        ∀ eq ∈ equations, eq.IgnoresExtraKeys := by
    rw [active_of_select hselect] at hkeys
    exact ⟨h.congr fun x => hs.isActive_iff hselect,
      fun eq heq => hs.exists_isFaithful hselect heq, hkeys⟩
  refine ⟨?_, ?_, ?_⟩
  · rw [check_eq, check_eq]
    apply bind_congr_of_ok
    intro equations hselect
    obtain ⟨hagree, hfaithful, hignores⟩ := hactive hselect
    exact hagree.check_eq hfaithful hignores _
  · rw [jacobian_eq, jacobian_eq]
    apply bind_congr_of_ok
    intro equations hselect
    obtain ⟨hagree, hfaithful, hignores⟩ := hactive hselect
    rw [hagree.partition_eq, hagree.ofEquations_eq hfaithful hignores]
  · intro hblock
    rw [solve_eq, solve_eq]
    apply bind_congr_of_ok
    intro equations hselect
    obtain ⟨hagree, hfaithful, hignores⟩ := hactive hselect
    -- The condition on the Jacobian is about the one that the solver itself builds.
    have hjacobian : s.jacobian values errors options.combo =
        (Jacobian.ofEquations equations (Partition.ofEquations equations values errors)
          values).mapError .evaluation := by
      rw [jacobian_eq, hselect]
      rfl
    have hunchecked := solveUnchecked_eq_of_agreeOn hagree hfaithful hignores
      (fun x hx => hconstants x ((hs.isActive_iff hselect).mpr hx))
      (hblock.imp_right fun hfinite J hJ =>
        hfinite J (hjacobian.trans (mapError_eq_ok_iff.mpr hJ)))
    rw [solveEquations_eq, solveEquations_eq, hagree.check_eq hfaithful hignores, hunchecked]

section Runs

/-- A list of names that has all variables of the active equations. -/
theorem Reachable.mem_of_isActive (hs : s.Reachable) {combo : Option String} {names : List String}
    (hvars : (s.active combo).all (fun eq => eq.vars.all (· ∈ names)) = true) {x : String}
    (hx : s.IsActive combo x) : x ∈ names := by
  cases hselect : s.equations.select combo with
  | error e =>
    obtain ⟨eq, heq, -⟩ := hx
    simp [active, hselect, Except.toOption] at heq
  | ok equations =>
    obtain ⟨eq, heq, hvar⟩ := EquationSet.mem_varsOf.mp ((hs.isActive_iff hselect).mp hx)
    rw [active_of_select hselect] at hvars
    exact of_decide_eq_true (List.all_eq_true.mp (List.all_eq_true.mp hvars eq heq) x hvar)

/-- Inputs that agree on a list of names, and no restricted name among the others. -/
theorem agreeOn_of_names {S : String → Prop} {names : List String} (hS : ∀ x, S x → x ∈ names)
    (hvalues : ∀ x ∈ names, values[x]? = values'[x]?)
    (herrors : ∀ x ∈ names, errors[x]? = errors'[x]?)
    (hothers : ∀ x ∈ values.keys ++ errors.keys ++ values'.keys ++ errors'.keys,
      isRestrictedName x = false) : AgreeOn S values errors values' errors' where
  sameValue x hx := hvalues x (hS x hx)
  sameError x hx := herrors x (hS x hx)
  others x _ hx := by
    apply hothers
    simpa [or_assoc] using hx

/-- The inputs `x = 2` and `y = 6`, and more that `y = 3*x` does not ask for. -/
theorem answers_of_agreeOn_triple :
    ∃ s : Solver Float, ofTexts ["y = 3*x"] Config.standard = .ok s ∧
      s.solve (NameMap.ofEntries [("x", 2), ("y", 6)]) (NameMap.ofEntries [("x", 0.1)]) {} =
        s.solve (NameMap.ofEntries [("t", 5), ("x", 2), ("y", 6)])
          (NameMap.ofEntries [("t", 1), ("x", 0.1)])
          { constants := some (NameMap.ofEntries [("t", 3)]) } := by
  let values : Point Float := NameMap.ofEntries [("x", 2), ("y", 6)]
  let errors : Point Float := NameMap.ofEntries [("x", 0.1)]
  have hrun : (ofTexts ["y = 3*x"] Config.standard).toOption.map (fun s : Solver Float =>
      ((s.active none).all fun eq => eq.vars.all (· ∈ ["x", "y"]),
        (s.active none).all fun eq => !eq.isNative,
        (s.jacobian values errors none).toOption.all fun J =>
          J.unknownBlock.all Scalar.isFinite)) = some (true, true, true) := by decide +kernel
  obtain ⟨s, hs, hchecks⟩ := Option.map_eq_some_iff.mp hrun
  simp only [Prod.mk.injEq] at hchecks
  obtain ⟨hvars, hkeys, hblock⟩ := hchecks
  have hreachable : s.Reachable := .ofTexts (toOption_eq_some_iff.mp hs)
  have hnames (x : String) (hx : s.IsActive none x) : x ∈ ["x", "y"] :=
    hreachable.mem_of_isActive hvars hx
  refine ⟨s, toOption_eq_some_iff.mp hs, ?_⟩
  refine (answers_of_agreeOn hreachable ?_ ?_ ?_).2.2 (.inr ?_)
  · intro eq heq
    have hsymbolic := List.all_eq_true.mp hkeys eq heq
    cases eq with
    | symbolic label residual partials => trivial
    | native label residual partials => contradiction
  · exact agreeOn_of_names hnames (by decide +kernel) (by decide +kernel) (by decide +kernel)
  · have hsame : ∀ x ∈ ["x", "y"], constantOf (none : Option (Point Float)) x =
        constantOf (some (NameMap.ofEntries [("t", 3)])) x := by decide +kernel
    exact fun x hx => hsame x (hnames x hx)
  · intro J hJ i j
    have hall := all_toOption_iff.mp hblock J hJ
    simp only [Mat.all, Vector.all_eq_true] at hall
    exact hall i i.isLt j j.isLt

/-- An equation `y = 2*x` given by functions, one of which reads a name that is not declared. -/
def overreaching : Native Float where
  label := "y = 2*x"
  vars := NameSet.ofNames ["x", "y"]
  residual p := p.getD "y" 0 - 2 * p.getD "x" 0
  partials := NameMap.ofEntries [("x", fun p => p.getD "z" 0), ("y", fun _ => 1)]

/-- A function may read what is not declared, so that the results depend on it. And zero constant
components make an error undefined where they meet an infinite derivative, here that of `sqrt(y)` at
zero. -/
theorem solve_ne_of_agreeOn :
    (∃ s : Solver Float, s.Reachable ∧ ∃ values values' errors : Point Float,
      values.IsFinite ∧ values'.IsFinite ∧ errors.IsFinite ∧
      AgreeOn (s.IsActive none) values errors values' errors ∧
      s.solve values errors {} ≠ s.solve values' errors {}) ∧
    ∃ s : Solver Float, s.Reachable ∧ ∃ values errors constants : Point Float,
      values.IsFinite ∧ errors.IsFinite ∧ constants.IsFinite ∧
      AgreeOn (s.IsActive none) values errors values errors ∧
      (∀ x, s.IsActive none x → constantOf none x = constantOf (some constants) x) ∧
      s.solve values errors {} ≠ s.solve values errors { constants := some constants } := by
  let reported (r : Except (Error Float) (Table Float)) : Option (List Float) :=
    r.toOption.map fun t => t.rows.map Row.error
  have hne {r r' : Except (Error Float) (Table Float)} (h : reported r ≠ reported r') : r ≠ r' :=
    fun heq => h (congrArg reported heq)
  constructor
  · let s : Solver Float := ⟨EquationSet.run {} [.native overreaching], Config.standard⟩
    have hreachable : s.Reachable := .ofEquations
    have hnames (x : String) (hx : s.IsActive none x) : x ∈ ["x", "y"] :=
      hreachable.mem_of_isActive (by decide +kernel) hx
    refine ⟨s, hreachable, NameMap.ofEntries [("x", 1), ("y", 2), ("z", 3)],
      NameMap.ofEntries [("x", 1), ("y", 2), ("z", 4)], NameMap.ofEntries [("x", 0.1)],
      by decide +kernel, by decide +kernel, by decide +kernel, ?_, hne (by decide +kernel)⟩
    exact agreeOn_of_names hnames (by decide +kernel) (by decide +kernel) (by decide +kernel)
  · let values : Point Float := NameMap.ofEntries [("x", 0), ("y", 0)]
    let errors : Point Float := NameMap.ofEntries [("x", 0.1)]
    let constants : Point Float := NameMap.ofEntries [("x", 0)]
    have hrun : (ofTexts ["sqrt(y) = x"] Config.standard).toOption.map (fun s : Solver Float =>
        ((s.active none).all fun eq => eq.vars.all (· ∈ ["x", "y"]),
          decide (reported (s.solve values errors {}) =
            reported (s.solve values errors { constants := some constants })))) =
        some (true, false) := by decide +kernel
    obtain ⟨s, hs, hchecks⟩ := Option.map_eq_some_iff.mp hrun
    obtain ⟨hvars, hreported⟩ := Prod.mk.inj hchecks
    have hreachable : s.Reachable := .ofTexts (toOption_eq_some_iff.mp hs)
    have hnames (x : String) (hx : s.IsActive none x) : x ∈ ["x", "y"] :=
      hreachable.mem_of_isActive hvars hx
    refine ⟨s, hreachable, values, errors, constants, by decide +kernel, by decide +kernel,
      by decide +kernel, ?_, ?_, hne (of_decide_eq_false hreported)⟩
    · exact agreeOn_of_names hnames (fun _ _ => rfl) (fun _ _ => rfl) (by decide +kernel)
    · have hsame : ∀ x ∈ ["x", "y"], constantOf none x = constantOf (some constants) x := by
        decide +kernel
      exact fun x hx => hsame x (hnames x hx)

end Runs

end Solver

end ErrorBudget
