import ErrorBudget.Double
import ErrorBudget.Proofs.EquationSet.Stored
import ErrorBudget.Proofs.Expr.Tree.Reading
import ErrorBudget.Proofs.Solver.Split
import ErrorBudget.Proofs.Substitution

/-!
# Well-formed expressions in a set

What is read from a text is well-formed, and neither a replacement of variables nor a derivative
leads out of the well-formed expressions. So everything that is stored in a set made of texts is
well-formed, and its evaluation can fail in few ways (`EvalFault.Within`): no function is unknown,
no argument is missing, and an equation needs no variable but its own (`Equation.IsClosed`).

Functions and arguments can be missed in trees only, where functions are looked up and written by
name. So all this is said of trees: of those that are read (`Tree.parse`), of their derivatives
(`Tree.derive`) and replacements (`Tree.substitute`), and of their values (`Tree.value`). Every
operation on expressions is the operation on their trees (`Tree.Agrees`).
-/

set_option autoImplicit false

namespace ErrorBudget

variable {α : Type}

/-- The failures at a point of what has only these variables: some of them have no number there, a
constant has no real value, or the result is not real. -/
inductive EvalFault.Within (vars : List String) (p : Point α) : EvalFault → Prop
  | unresolved {names} (hsome : names ≠ []) (h : ∀ x ∈ names, x ∈ vars ∧ x ∉ p) :
      Within vars p (.unresolved names)
  | unassigned {x} (hx : x ∈ vars) (hp : x ∉ p) : Within vars p (.unassigned x)
  | noRealValue {c : Constant} (hc : c.isReal = false) : Within vars p (.noRealValue c)
  | notReal : Within vars p .notReal

/-- Variables that a point leaves open are reported together. -/
theorem EvalFault.within_filter {vars names : List String} {p : Point α}
    (hnames : ∀ x ∈ names, x ∈ vars) (hopen : names.filter (· ∉ p) ≠ []) :
    Within vars p (.unresolved (names.filter (· ∉ p))) := by
  refine .unresolved hopen fun x hx => ?_
  obtain ⟨hmem, hnot⟩ := List.mem_filter.mp hx
  exact ⟨hnames x hmem, of_decide_eq_true hnot⟩

variable [Scalar α]

namespace Expr

variable {e : Expr α} {p : Point α} {vars : List String} {fault : EvalFault}

/-- An expression that is read is well-formed. -/
theorem isWellFormed_of_parse {text : String} (h : parse text = .ok e) : e.IsWellFormed :=
  isWellFormed_iff.mpr (leavesIn_of_parse h)

/-- An equation that is read is well-formed. -/
theorem isWellFormed_of_parseEquation {l : Limits} {text : String}
    (h : parseEquation l text = .ok e) : e.IsWellFormed :=
  isWellFormed_iff.mpr (leavesIn_of_parseEquation h)

/-- A derivative of a well-formed expression is well-formed. -/
theorem IsWellFormed.derive (h : e.IsWellFormed) (x : String) : (e.derive x).IsWellFormed :=
  isWellFormed_iff.mpr ((isWellFormed_iff.mp h).derive x)

omit [Scalar α] in
/-- Well-formed replacements leave a well-formed expression well-formed. -/
theorem IsWellFormed.substitute (h : e.IsWellFormed) {names : NameMap (Expr α)}
    (hnames : ∀ (x : String) (r : Expr α), names[x]? = some r → r.IsWellFormed) :
    (e.substitute names).IsWellFormed := by
  refine isWellFormed_iff.mpr ((isWellFormed_iff.mp h).substitute fun x r hr => ?_)
  exact isWellFormed_iff.mp (hnames x r hr)

/-- An undefined result is one of the failures that can occur. -/
theorem within_defined {y : α} (h : defined y = .error fault) : fault.Within vars p := by
  unfold defined at h
  split at h
  · exact Except.error.inj h ▸ .notReal
  · contradiction

section Faults

variable (hvars : ∀ x, e.contains x = true → x ∈ vars)

include hvars

/-- A reduction fails at the first leaf that does not resolve. -/
theorem within_real (h : e.real p = .error fault) : fault.Within vars p := by
  induction e with
  | number c => contradiction
  | symbol name =>
    rw [real] at h
    split at h
    · contradiction
    · rename_i hnone
      have hopen : name ∉ p := NameMap.getElem?_eq_none_iff.mp hnone
      exact Except.error.inj h ▸ .unassigned (hvars name (by simp [contains])) hopen
  | constant c =>
    rw [real] at h
    split at h
    · contradiction
    · rename_i hnone
      refine Except.error.inj h ▸ .noRealValue ?_
      rw [← Constant.isSome_value? (α := α), hnone, Option.isSome_none]
  | call f u ih =>
    rcases bind_eq_error_iff.mp h with hu | ⟨x, -, hpure⟩
    · exact ih hvars hu
    · contradiction
  | add u v ihu ihv | sub u v ihu ihv | mul u v ihu ihv | div u v ihu ihv =>
    rcases bind_eq_error_iff.mp h with hu | ⟨x, -, hrest⟩
    · exact ihu (fun y hy => hvars y (by simp [contains, hy])) hu
    · rcases bind_eq_error_iff.mp hrest with hv | ⟨y, -, hpure⟩
      · exact ihv (fun y hy => hvars y (by simp [contains, hy])) hv
      · contradiction
  | pow u v ihu ihv =>
    have hu (hu : u.real p = .error fault) : fault.Within vars p :=
      ihu (fun y hy => hvars y (by simp [contains, hy])) hu
    -- A literal exponent is not evaluated, any other is.
    cases hliteral : v.number? with
    | some n =>
      cases v with
      | number c =>
        rw [real] at h
        rcases bind_eq_error_iff.mp h with hbase | ⟨x, -, hpure⟩
        · exact hu hbase
        · contradiction
      | _ => simp [number?] at hliteral
    | none =>
      rw [real_pow hliteral] at h
      rcases bind_eq_error_iff.mp h with hbase | ⟨x, -, hrest⟩
      · exact hu hbase
      · rcases bind_eq_error_iff.mp hrest with hexponent | ⟨y, -, hpure⟩
        · exact ihv (fun y hy => hvars y (by simp [contains, hy])) hexponent
        · contradiction

/-- A value is missing for one of the failures that can occur. -/
theorem within_value (h : e.value p = .error fault) : fault.Within vars p := by
  unfold value at h
  split at h
  · rcases bind_eq_error_iff.mp h with hreal | ⟨y, -, hdefined⟩
    · exact within_real hvars hreal
    · exact within_defined hdefined
  · rename_i hopen
    refine Except.error.inj h ▸ EvalFault.within_filter (fun x hx => ?_) hopen
    exact hvars x ((contains_iff_mem_vars x e).mpr (Std.ExtTreeSet.mem_toList.mp hx))

/-- An evaluation fails for one of the failures that can occur, whatever text it is reported
with. -/
theorem within_evaluate {error : EvalError α} (h : e.evaluate p = .error error) :
    error.fault.Within vars p := by
  obtain ⟨fault, hfault, rfl⟩ := mapError_eq_error_iff.mp h
  exact within_value hvars hfault

end Faults

/-- Whether an expression is well-formed and needs only these variables: nothing else matters for
its value, and nothing else is reported when it has none, also if its functions are looked up by
name as those of a tree. -/
structure NeedsOnly (vars : List String) (e : Expr α) : Prop where
  wellFormed : e.IsWellFormed
  mem_vars : ∀ x ∈ e.vars, x ∈ vars
  reduction : ∀ p fault, e.tree.real p = .error fault →
    ∃ f : EvalFault, fault = .evaluation f ∧ f.Within vars p
  value : ∀ p fault, e.tree.value p = .error fault →
    ∃ f : EvalFault, fault = .evaluation f ∧ f.Within vars p
  evaluation : ∀ p error, e.evaluate p = .error error → error.fault.Within vars p
  agreement : ∀ p q : Point α, (∀ x ∈ vars, p[x]? = q[x]?) → e.evaluate p = e.evaluate q

/-- A well-formed expression needs no variables but its own. -/
theorem IsWellFormed.needsOnly (h : e.IsWellFormed)
    (hvars : ∀ x, e.contains x = true → x ∈ vars) : e.NeedsOnly vars where
  wellFormed := h
  mem_vars x hx := hvars x ((contains_iff_mem_vars x e).mpr hx)
  reduction p fault hfault := by
    rw [real_tree] at hfault
    obtain ⟨f, hf, rfl⟩ := mapError_eq_error_iff.mp hfault
    exact ⟨f, rfl, within_real hvars hf⟩
  value p fault hfault := by
    rw [value_tree] at hfault
    obtain ⟨f, hf, rfl⟩ := mapError_eq_error_iff.mp hfault
    exact ⟨f, rfl, within_value hvars hf⟩
  evaluation _ _ := within_evaluate hvars
  agreement _ _ hagree := evaluate_congr fun x hx => hagree x (hvars x hx)

end Expr

namespace Tree

/-- Trees that are read are the trees of well-formed expressions. -/
theorem isWellFormed_of_parse {text : String} {t : Tree α} (h : parse text = .ok t) :
    t.IsWellFormed := by
  obtain ⟨e, he, rfl⟩ := map_eq_ok_iff.mp ((parse_eq text).symm.trans h)
  exact Expr.isWellFormed_of_parse he

/-- An equation that is read as a tree is well-formed. -/
theorem isWellFormed_of_parseEquation {l : Limits} {text : String} {t : Tree α}
    (h : parseEquation l text = .ok t) : t.IsWellFormed := by
  obtain ⟨e, he, rfl⟩ := map_eq_ok_iff.mp ((parseEquation_eq l text).symm.trans h)
  exact Expr.isWellFormed_of_parseEquation he

/-- A well-formed tree has a derivative, which is well-formed and brings in no variable. -/
theorem IsWellFormed.exists_derive {t : Tree α} (h : t.IsWellFormed) (x : String) :
    ∃ d, t.derive x = .ok d ∧ d.IsWellFormed ∧ ∀ y ∈ d.vars, y ∈ t.vars := by
  obtain ⟨e, he, rfl⟩ := isWellFormed_iff.mp h
  refine ⟨(e.derive x).tree, e.derive_tree x, he.derive x, fun y hy => ?_⟩
  rw [Expr.vars_tree, ← Expr.contains_iff_mem_vars] at hy ⊢
  exact Expr.contains_of_contains_derive hy

/-- The operations on expressions are those on their trees, where functions are looked up and
written by name. -/
structure Agrees (α : Type) [Scalar α] : Prop where
  /-- The well-formed trees are those of the well-formed expressions. -/
  wellFormed : ∀ t : Tree α, t.IsWellFormed ↔ ∃ e : Expr α, e.IsWellFormed ∧ e.tree = t
  parse : ∀ text : String,
    parse text = (Expr.parse text : Except (ParseError α) (Expr α)).map Expr.tree
  parseEquation : ∀ (l : Limits) (text : String),
    parseEquation l text = (Expr.parseEquation l text : Except (Error α) (Expr α)).map Expr.tree
  derive : ∀ (x : String) (e : Expr α), e.tree.derive x = .ok (e.derive x).tree
  substitute : ∀ (e : Expr α) (names : NameMap (Expr α)),
    e.tree.substitute (names.map fun _ r => r.tree) = (e.substitute names).tree
  vars : ∀ e : Expr α, e.tree.vars = e.vars
  value : ∀ (e : Expr α) (p : Point α), e.tree.value p = (e.value p).mapError .evaluation

/-- The operations on expressions and on trees agree. -/
theorem agrees : Agrees α where
  wellFormed _ := isWellFormed_iff
  parse := parse_eq
  parseEquation := parseEquation_eq
  derive := Expr.derive_tree
  substitute := Expr.substitute_tree
  vars := Expr.vars_tree
  value := Expr.value_tree

end Tree

namespace Equation

/-- Whether an equation is made of well-formed expressions and needs only its own variables, for its
residual and for each of its derivatives, which are those of the tree of the residual. -/
structure IsClosed (eq : Equation α) : Prop where
  made : ∃ label residual partials, eq = .symbolic label residual partials ∧
    (∀ x, x ∈ eq.vars ↔ x ∈ residual.vars) ∧ residual.NeedsOnly eq.vars ∧
    ∀ (x : String) (d : Expr α), partials[x]? = some d →
      residual.tree.derive x = .ok d.tree ∧ d.NeedsOnly eq.vars
  residual : ∀ p error, eq.evaluate p = .error error → error.fault.Within eq.vars p
  partials : ∀ x p error, eq.partialAt x p = .error error → error.fault.Within eq.vars p
  agreement : ∀ p q : Point α, (∀ x ∈ eq.vars, p[x]? = q[x]?) →
    eq.evaluate p = eq.evaluate q ∧ ∀ x, eq.partialAt x p = eq.partialAt x q

variable {label : String} {residual : Expr α} {partials : NameMap (Expr α)}
  {edits : List (Edit α)}

/-- A well-formed residual with its derivatives makes an equation that needs only its own
variables. -/
theorem isClosed_of_isWellFormed (h : residual.IsWellFormed)
    (hfaithful : (symbolic label residual partials).IsFaithful edits) :
    (symbolic label residual partials).IsClosed := by
  have hvars (x : String) : x ∈ (symbolic label residual partials).vars ↔ x ∈ residual.vars :=
    hfaithful.mem_vars x
  have hown (x : String) (hx : residual.contains x = true) :
      x ∈ (symbolic label residual partials).vars :=
    (hvars x).mpr ((Expr.contains_iff_mem_vars x residual).mp hx)
  have hresidual := h.needsOnly hown
  -- The derivatives of a faithful equation are those of its residual, so they need no more
  -- variables.
  have hpartial (x : String) (d : Expr α) (hd : partials[x]? = some d) :
      residual.tree.derive x = .ok d.tree ∧
        d.NeedsOnly (symbolic label residual partials).vars := by
    obtain rfl := hfaithful.values x d hd
    exact ⟨residual.derive_tree x,
      (h.derive x).needsOnly fun y hy => hown y (Expr.contains_of_contains_derive hy)⟩
  refine ⟨⟨label, residual, partials, rfl, hvars, hresidual, hpartial⟩, ?_, ?_, ?_⟩
  · intro p error herror
    rcases bind_eq_error_iff.mp herror with hopen | ⟨_, -, hvalue⟩
    · unfold requireResolved at hopen
      split at hopen
      · contradiction
      · rename_i hsome
        exact Except.error.inj hopen ▸ EvalFault.within_filter (fun x hx => hx) hsome
    · exact hresidual.evaluation p error hvalue
  · intro x p error herror
    unfold partialAt at herror
    dsimp only at herror
    split at herror
    · rename_i d hd
      exact (hpartial x d hd).2.evaluation p error herror
    · contradiction
  · intro p q hagree
    exact ⟨evaluate_congr hagree hfaithful trivial,
      partialAt_congr hagree hfaithful trivial⟩

end Equation

namespace EquationSet

variable {edits : List (Edit α)}

/-- Every replacement and every stored expression of a set is well-formed. -/
theorem satisfies_isWellFormed_run (edits : List (Edit α)) :
    (run {} edits).Satisfies Expr.IsWellFormed Expr.IsWellFormed := by
  apply run_induction (satisfies_of_empty (l := {}))
  intro s edit r s' _ hs h
  have hedit : edit.Replaces Expr.IsWellFormed :=
    edit.replaces_of_parse fun text e he => Expr.isWellFormed_of_parse he
  refine hs.step (fun names text e hnames he => ?_) hedit h
  exact (Expr.isWellFormed_of_parseEquation he).substitute hnames

/-- What is read, replaced or derived is well-formed, and the equations of a set that is made of
texts need only their own variables: no function in them is unknown and no argument is missing. -/
theorem wellFormed_throughout :
    (∀ (text : String) (t : Tree α), Tree.parse text = .ok t → t.IsWellFormed) ∧
    (∀ (l : Limits) (text : String) (t : Tree α),
      Tree.parseEquation l text = .ok t → t.IsWellFormed) ∧
    (∀ t : Tree α, t.IsWellFormed → ∀ x, ∃ d, t.derive x = .ok d ∧ d.IsWellFormed ∧
      ∀ y ∈ d.vars, y ∈ t.vars) ∧
    (∀ (t : Tree α) (names : NameMap (Tree α)), t.IsWellFormed →
      (∀ (x : String) (r : Tree α), names[x]? = some r → r.IsWellFormed) →
      (t.substitute names).IsWellFormed) ∧
    Tree.Agrees α ∧
    (∀ (e : Expr α) (x : String), ∀ y ∈ (e.derive x).vars, y ∈ e.vars) ∧
    ∀ edits : List (Edit α), (∀ n, Edit.native n ∉ edits) →
      ∀ (i : Nat) (eq : Equation α), (run {} edits).get? i = some eq → eq.IsClosed := by
  refine ⟨fun text t => Tree.isWellFormed_of_parse,
    fun l text t => Tree.isWellFormed_of_parseEquation, fun t ht => ht.exists_derive,
    fun t names ht => ht.substitute, Tree.agrees, fun e x y hy => ?_,
    fun edits htexts i eq heq => ?_⟩
  · rw [← Expr.contains_iff_mem_vars] at hy ⊢
    exact Expr.contains_of_contains_derive hy
  · have hfaithful := (consistent_run edits).faithful i eq heq
    cases eq with
    | symbolic label residual partials =>
      have hresidual := (satisfies_isWellFormed_run edits).stored i _ heq residual rfl
      exact Equation.isClosed_of_isWellFormed hresidual hfaithful
    | native label residual partials =>
      obtain ⟨n, hn, -⟩ := hfaithful
      exact absurd hn (htexts n)

/-- A definition that replaces a radius by half of a diameter, and an equation that calls a
function; read as a tree, a call whose derivative calls another function. -/
theorem wellFormed_throughout_definition :
    let edits : List (Edit Float) :=
      [.load "[names]\nr: d/2\n[equations]\nA = pi*r**2", .equation "t = atan(A) / r"]
    (∀ n, Edit.native n ∉ edits) ∧ (run {} edits).size = 2 ∧
      (∀ (i : Nat) (eq : Equation Float), (run {} edits).get? i = some eq → eq.IsClosed) ∧
      ∃ t d : Tree Float, Tree.parse "cosh(2*x)" = .ok t ∧ t.derive "x" = .ok d ∧
        d.IsWellFormed := by
  intro edits
  have htexts : ∀ n, Edit.native n ∉ edits := by simp [edits]
  obtain ⟨hparse, -, hderive, -, -, -, hclosed⟩ := wellFormed_throughout (α := Float)
  have hok : (Tree.parse "cosh(2*x)" : Except (ParseError Float) (Tree Float)).isOk = true := by
    decide +kernel
  obtain ⟨t, ht⟩ := exists_eq_ok_of_isOk hok
  obtain ⟨d, hd, hwellFormed, -⟩ := hderive t (hparse _ t ht) "x"
  exact ⟨htexts, by decide +kernel, hclosed edits htexts, t, d, ht, hd, hwellFormed⟩

end EquationSet

end ErrorBudget
