import ErrorBudget.Proofs.Solver.Completeness
import ErrorBudget.Proofs.Value

/-!
# Assembled Jacobians

The variables of the active equations are known, unknown or missing, and each is one of these only
(`Partition.Divides`). The Jacobian exists exactly when none is missing and every partial derivative
has a value, and then each of its cells is the derivative that its place says
(`Solver.jacobian_assembled`).

The cell of a variable that does not occur in an equation is zero. So is the derivative of the
residual with respect to that variable, as every rule of differentiation drops what does not vary:
the derivative is the literal zero itself (`Expr.derive_of_not_contains`).
-/

set_option autoImplicit false

namespace ErrorBudget

namespace Expr

variable {α : Type} [Scalar α] {e : Expr α} {x : String}

/-- The derivative with respect to a variable that does not occur is the literal zero, where zero
itself is negligible. -/
theorem derive_of_not_contains (hzero : Scalar.negligible (0 : α) = true)
    (h : e.contains x = false) : e.derive x = zero := by
  have hdropped : (zero : Expr α).isNegligible = true := hzero
  induction e with
  | number c | constant c => rfl
  | symbol name =>
    rw [derive, if_neg]
    simpa [contains] using h
  | call f u ih => rw [derive, if_neg (by simpa [contains] using h)]
  | add u v ihu ihv =>
    obtain ⟨hu, hv⟩ := Bool.or_eq_false_iff.mp h
    rw [derive, ihu hu, ihv hv, sum, if_pos hdropped]
  | sub u v ihu ihv =>
    obtain ⟨hu, hv⟩ := Bool.or_eq_false_iff.mp h
    rw [derive, ihu hu, ihv hv, difference, if_pos hdropped]
  | mul u v ihu ihv =>
    obtain ⟨hu, hv⟩ := Bool.or_eq_false_iff.mp h
    have hleft : product zero v = zero := by simp [product, hdropped]
    have hright : product u zero = zero := by simp [product, hdropped]
    rw [derive, ihu hu, ihv hv, hleft, hright, sum, if_pos hdropped]
  | div u v ihu ihv =>
    obtain ⟨hu, hv⟩ := Bool.or_eq_false_iff.mp h
    rw [derive, ihu hu, ihv hv, quotientRule, if_pos hdropped, if_pos hdropped]
  | pow u v ihu ihv =>
    obtain ⟨hu, hv⟩ := Bool.or_eq_false_iff.mp h
    rw [derive, if_neg (by simpa using hv), ihu hu, powerRule, if_pos hdropped]

end Expr

namespace Partition

variable {α : Type}

/-- How the free variables of some equations are divided: by what is given for them each is known,
unknown or missing, and one of these only. Known and unknown variables are listed in increasing
order. -/
structure Divides (p : Partition) (missing : NameSet) (equations : List (Equation α))
    (values errors : Point α) : Prop where
  mem_known : ∀ x, x ∈ p.known ↔ (∃ eq ∈ equations, eq.IsFree x) ∧ x ∈ errors
  mem_unknown : ∀ x, x ∈ p.unknown ↔
    (∃ eq ∈ equations, eq.IsFree x) ∧ x ∈ values ∧ x ∉ errors
  mem_missing : ∀ x, x ∈ missing ↔ (∃ eq ∈ equations, eq.IsFree x) ∧ x ∉ values ∧ x ∉ errors
  known_unknown : ∀ x, ¬(x ∈ p.known ∧ x ∈ p.unknown)
  known_missing : ∀ x, ¬(x ∈ p.known ∧ x ∈ missing)
  unknown_missing : ∀ x, ¬(x ∈ p.unknown ∧ x ∈ missing)
  all : ∀ x, x ∈ p.known ∨ x ∈ p.unknown ∨ x ∈ missing ↔ ∃ eq ∈ equations, eq.IsFree x
  known_increasing : p.known.Pairwise (· < ·)
  unknown_increasing : p.unknown.Pairwise (· < ·)

variable {equations : List (Equation α)} {values errors : Point α}

/-- The partition of some equations divides their free variables by what is given for them. -/
theorem divides_ofEquations
    (hvars : ∀ x, x ∈ EquationSet.varsOf equations ↔ ∃ eq ∈ equations, eq.IsFree x) :
    (ofEquations equations values errors).Divides
      (missingVariables values errors (EquationSet.varsOf equations)) equations values errors := by
  have hknown (x : String) : x ∈ (ofEquations equations values errors).known ↔
      (∃ eq ∈ equations, eq.IsFree x) ∧ x ∈ errors :=
    mem_known.trans (and_congr_left' (hvars x))
  have hunknown (x : String) : x ∈ (ofEquations equations values errors).unknown ↔
      (∃ eq ∈ equations, eq.IsFree x) ∧ x ∈ values ∧ x ∉ errors :=
    mem_unknown.trans (and_congr_left' (hvars x))
  have hmissing (x : String) :
      x ∈ missingVariables values errors (EquationSet.varsOf equations) ↔
        (∃ eq ∈ equations, eq.IsFree x) ∧ x ∉ values ∧ x ∉ errors :=
    mem_missingVariables.trans (and_congr_left' (hvars x))
  have hincreasing : (EquationSet.varsOf equations).toList.Pairwise (· < ·) :=
    Std.ExtTreeSet.ordered_toList.imp compare_lt_iff_lt.mp
  refine ⟨hknown, hunknown, hmissing, ?_, ?_, ?_, ?_, hincreasing.filter _, hincreasing.filter _⟩
  · rintro x ⟨hk, hu⟩
    exact ((hunknown x).mp hu).2.2 ((hknown x).mp hk).2
  · rintro x ⟨hk, hm⟩
    exact ((hmissing x).mp hm).2.2 ((hknown x).mp hk).2
  · rintro x ⟨hu, hm⟩
    exact ((hmissing x).mp hm).2.1 ((hunknown x).mp hu).2.1
  · intro x
    rw [hknown, hunknown, hmissing, ← and_or_left, ← and_or_left]
    refine and_iff_left ?_
    by_cases herror : x ∈ errors
    · exact .inl herror
    · by_cases hvalue : x ∈ values
      · exact .inr (.inl ⟨hvalue, herror⟩)
      · exact .inr (.inr ⟨hvalue, herror⟩)

/-- All variables of the equations have columns exactly if none is missing. -/
theorem Divides.forall_mem_columns_iff {p : Partition} {missing : NameSet}
    (h : p.Divides missing equations values errors) :
    (∀ eq ∈ equations, ∀ x, eq.IsFree x → x ∈ p.columns) ↔ ∀ x, x ∉ missing := by
  constructor
  · intro hcolumns x hx
    obtain ⟨⟨eq, heq, hfree⟩, -⟩ := (h.mem_missing x).mp hx
    rcases List.mem_append.mp (hcolumns eq heq x hfree) with hu | hk
    · exact h.unknown_missing x ⟨hu, hx⟩
    · exact h.known_missing x ⟨hk, hx⟩
  · intro hnone eq heq x hfree
    rcases (h.all x).mpr ⟨eq, heq, hfree⟩ with hk | hu | hm
    · exact List.mem_append_right _ hk
    · exact List.mem_append_left _ hu
    · exact absurd hm (hnone x)

end Partition

/-- Two matrices side by side. -/
def Mat.beside {α : Type} {m n k : Nat} (A : Mat α m n) (B : Mat α m k) : Mat α m (n + k) :=
  ofFn fun i => Fin.addCases (A i) (B i)

namespace Jacobian

variable {α : Type}

/-- The two blocks of a Jacobian are its columns. -/
theorem beside_blocks (J : Jacobian α) : J.unknownBlock.beside J.knownBlock = J.cells := by
  apply Mat.ext_apply
  intro i j
  rw [Mat.beside, Mat.ofFn_apply]
  refine Fin.addCases (fun k => ?_) (fun k => ?_) j
  · rw [Fin.addCases_left, unknownBlock, Mat.ofFn_apply]
  · rw [Fin.addCases_right, knownBlock, Mat.ofFn_apply]

variable [Scalar α] {equations : List (Equation α)} {p : Partition} {values : Point α}

/-- The cell under the name of a column is a slope. -/
theorem get?_ofSlopes {r : Nat} {eq : Equation α} {x : String} (hr : equations[r]? = some eq)
    (hx : x ∈ p.columns) : (ofSlopes equations p values).get? r x = some (eq.slope values x) := by
  obtain ⟨hlt, heq⟩ := List.getElem?_eq_some_iff.mp hr
  have hrow : r < (ofSlopes equations p values).equations := by rwa [equations_ofSlopes]
  cases hj : (ofSlopes equations p values).columns.finIdxOf? x with
  | none => exact absurd hx (List.finIdxOf?_eq_none_iff.mp hj)
  | some j =>
    have hname : p.columns[j] = x := (List.finIdxOf?_eq_some_iff.mp hj).1
    have hcell : (ofSlopes equations p values).cells ⟨r, hrow⟩ (j.cast (length_columns _)) = _ :=
      cells_ofSlopes ..
    rw [get?, dif_pos hrow, hj, Option.map_some]
    refine congrArg some (hcell.trans ?_)
    rw [List.get_eq_getElem, List.get_eq_getElem]
    exact congrArg₂ (fun eq x => Equation.slope eq values x) heq hname

/-- A Jacobian with a row for each equation and a column for each variable of a partition, in which
every cell is the derivative that its place says: that of the equation, which is zero for a variable
that does not occur, and that of its residual if this is an expression. -/
structure Assembles (J : Jacobian α) (equations : List (Equation α)) (p : Partition)
    (values : Point α) : Prop where
  rows : J.equations = equations.length
  columns : J.columns = p.unknown ++ p.known
  cell : ∀ r eq x, equations[r]? = some eq → x ∈ J.columns →
    ∃ d, J.get? r x = some d ∧ eq.partialAt x values = .ok d ∧ (¬eq.IsFree x → d = 0) ∧
      ∀ e, eq.expr? = some e → (e.derive x).evaluate values = .ok d
  blocks : J.unknownBlock.beside J.knownBlock = J.cells

end Jacobian

namespace Equation

variable {α : Type} [Scalar α]

/-- An equation with a row has a derivative with respect to every variable. -/
theorem HasRow.exists_partialAt {eq : Equation α} {columns : List String} {p : Point α}
    (h : eq.HasRow columns p) (x : String) : ∃ d, eq.partialAt x p = .ok d := by
  by_cases hx : x ∈ eq.vars
  · exact h.slopes x hx
  · exact ⟨0, partialAt_of_not_mem hx⟩

/-- The derivative of an equation is that of its residual, also for a variable that does not
occur. -/
theorem IsFaithful.partialAt_eq (hzero : Scalar.negligible (0 : α) = true)
    (hdefined : Scalar.isNaN (0 : α) = false) {edits : List (Edit α)} {eq : Equation α}
    (h : eq.IsFaithful edits) {e : Expr α} (he : eq.expr? = some e) (x : String) (p : Point α) :
    eq.partialAt x p = (e.derive x).evaluate p := by
  cases eq with
  | native label residual partials => contradiction
  | symbolic label residual partials =>
    obtain rfl : residual = e := Option.some.inj he
    cases hx : partials[x]? with
    | some d =>
      obtain rfl := h.values x d hx
      simp only [partialAt, hx]
    | none =>
      have habsent : residual.contains x = false := by
        rw [Bool.eq_false_iff, ne_eq, Expr.contains_iff_mem_vars, ← h.keys x]
        exact NameMap.getElem?_eq_none_iff.mp hx
      have hvalue : (Expr.zero : Expr α).evaluate p = .ok 0 :=
        Expr.evaluate_eq_ok_iff.mpr ⟨trivial, rfl, hdefined⟩
      rw [Expr.derive_of_not_contains hzero habsent, hvalue]
      simp only [partialAt, hx]

end Equation

namespace Solver

/-- The variables of the active equations are known, unknown or missing. Their Jacobian exists
exactly if none is missing and all derivatives have values, and then its cells are these values. -/
theorem jacobian_assembled {s : Solver Float} (hs : s.Reachable) (values errors : Point Float)
    (combo : Option String) :
    (∀ e, s.equations.select combo = .error e → s.jacobian values errors combo = .error e) ∧
    ∀ equations, s.equations.select combo = .ok equations →
      ∃ p missing, s.partition values errors combo = .ok p ∧
        s.missing values errors combo = .ok missing ∧
        p.Divides missing equations values errors ∧
        ((∃ J, s.jacobian values errors combo = .ok J) ↔ (∀ x, x ∉ missing) ∧
          ∀ eq ∈ equations, ∀ x, eq.IsFree x → ∃ d, eq.partialAt x values = .ok d) ∧
        ∀ J, s.jacobian values errors combo = .ok J → J.Assembles equations p values := by
  constructor
  · intro e he
    rw [jacobian_eq, he]
    rfl
  · intro equations hselect
    have hfree (eq : Equation Float) (heq : eq ∈ equations) (x : String) :
        x ∈ eq.vars ↔ eq.IsFree x := hs.mem_vars hselect heq x
    have hdivides : Partition.Divides (.ofEquations equations values errors)
        (missingVariables values errors (EquationSet.varsOf equations))
        equations values errors := by
      refine Partition.divides_ofEquations fun x => EquationSet.mem_varsOf.trans ?_
      exact exists_congr fun eq => and_congr_right fun heq => hfree eq heq x
    refine ⟨_, _, partition_eq_of_select hselect, missing_eq_of_select hselect, hdivides, ?_, ?_⟩
    -- A variable of an equation has no column exactly if it is missing.
    · rw [← hdivides.forall_mem_columns_iff]
      simp only [jacobian_eq_ok_iff hselect, exists_and_left, exists_eq, and_true]
      constructor
      · intro hrows
        exact ⟨fun eq heq x hx => (hrows eq heq).columns x ((hfree eq heq x).mpr hx),
          fun eq heq x hx => (hrows eq heq).slopes x ((hfree eq heq x).mpr hx)⟩
      · rintro ⟨hcolumns, hslopes⟩ eq heq
        exact ⟨fun x hx => hcolumns eq heq x ((hfree eq heq x).mp hx),
          fun x hx => hslopes eq heq x ((hfree eq heq x).mp hx)⟩
    · intro J hJ
      obtain ⟨hrows, rfl⟩ := (jacobian_eq_ok_iff hselect).mp hJ
      refine ⟨Jacobian.equations_ofSlopes .., rfl, ?_, Jacobian.beside_blocks _⟩
      intro r eq x hr hx
      have heq : eq ∈ equations := List.mem_of_getElem? hr
      obtain ⟨edits, hfaithful⟩ := hs.exists_isFaithful hselect heq
      obtain ⟨d, hd⟩ := (hrows eq heq).exists_partialAt x
      refine ⟨d, ?_, hd, fun habsent => ?_, fun e he => ?_⟩
      · rw [Jacobian.get?_ofSlopes hr hx, Equation.slope_of_eq_ok hd]
      · have hzero := Equation.partialAt_of_not_mem (p := values) (mt (hfree eq heq x).mp habsent)
        exact Except.ok.inj (hd.symm.trans hzero)
      · rw [← hfaithful.partialAt_eq (by decide +kernel) rfl he, hd]

/-- Two equations taken backwards, the second of which lacks the variable `z` of the first. -/
theorem jacobian_assembled_backwards :
    let s : Solver Float := ⟨EquationSet.run {}
      [.equation "y = 3*x", .equation "z = x*y", .combo "back" [1, 0]], Config.standard⟩
    let values : Point Float := NameMap.ofEntries [("x", 2), ("y", 6), ("z", 12)]
    let errors : Point Float := NameMap.ofEntries [("x", 0.1)]
    s.Reachable ∧ ∃ equations p missing J, s.equations.select (some "back") = .ok equations ∧
      s.partition values errors (some "back") = .ok p ∧
      s.missing values errors (some "back") = .ok missing ∧
      p.Divides missing equations values errors ∧
      s.jacobian values errors (some "back") = .ok J ∧ J.Assembles equations p values := by
  intro s values errors
  have hs : s.Reachable := .ofEquations
  have hok : (s.jacobian values errors (some "back")).isOk = true := by decide +kernel
  obtain ⟨J, hJ⟩ := exists_eq_ok_of_isOk hok
  obtain ⟨hunselected, hassembled⟩ := jacobian_assembled hs values errors (some "back")
  cases hselect : s.equations.select (some "back") with
  | error e => simp [hunselected e hselect] at hJ
  | ok equations =>
    obtain ⟨p, missing, hp, hmissing, hdivides, -, hcells⟩ := hassembled equations hselect
    exact ⟨hs, equations, p, missing, J, rfl, hp, hmissing, hdivides, hJ, hcells J hJ⟩

end Solver

end ErrorBudget
