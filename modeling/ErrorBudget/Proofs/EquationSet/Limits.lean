import ErrorBudget.Double
import ErrorBudget.Proofs.EquationSet.Stored
import ErrorBudget.Proofs.Parser.Equation

/-!
# Limits of stored equations

The limits of a set hold for the texts of its equations, but not for what is stored: replacements
are read within limits of their own, and they are put in afterwards. So a stored equation is as
large as a text within the limits can become when each of its variables is replaced
(`stored_isWithin`). The limits of the set bound what is stored if the replacements are single
nodes; any other replacement of a variable exceeds some limits (`limits_kept_iff`).
-/

set_option autoImplicit false

namespace ErrorBudget

/-- The limits of an expression within `l` after replacements within `m`. -/
def Limits.grown (l m : Limits) : Limits where
  depth := l.depth + (m.depth - 1)
  size := l.size * m.size

namespace Expr

variable {α : Type} {e : Expr α} {l m : Limits}

/-- Replacements add to the depth and multiply the size. -/
theorem IsWithin.substitute (he : e.IsWithin l) {names : NameMap (Expr α)} (hm : 0 < m.size)
    (hnames : ∀ (x : String) (r : Expr α), names[x]? = some r → r.IsWithin m) :
    (e.substitute names).IsWithin (l.grown m) := by
  have hleaf (x : String) : (names.getD x (symbol x)).IsWithin (Limits.grown ⟨1, 1⟩ m) := by
    rw [Std.ExtTreeMap.getD_eq_getD_getElem?]
    cases hx : names[x]? with
    | none =>
      simp only [Option.getD_none, IsWithin, depth, size, Limits.grown]
      omega
    | some r =>
      obtain ⟨hdepth, hsize⟩ := hnames x r hx
      simp only [Option.getD_some, IsWithin, Limits.grown]
      omega
  have hgrown : (e.substitute names).IsWithin (Limits.grown ⟨e.depth, e.size⟩ m) := by
    clear he
    induction e with
    | number _ | constant _ =>
      simp only [Expr.substitute, IsWithin, depth, size, Limits.grown]
      omega
    | symbol x => exact hleaf x
    | call f u ih =>
      simp only [Expr.substitute, IsWithin, depth, size, Limits.grown, Nat.add_mul] at ih ⊢
      omega
    | add u v ihu ihv | sub u v ihu ihv | mul u v ihu ihv | div u v ihu ihv | pow u v ihu ihv =>
      simp only [Expr.substitute, IsWithin, depth, size, Limits.grown, Nat.add_mul] at ihu ihv ⊢
      omega
  have hdepth : e.depth + (m.depth - 1) ≤ l.depth + (m.depth - 1) := Nat.add_le_add_right he.1 _
  have hsize : e.size * m.size ≤ l.size * m.size := Nat.mul_le_mul_right _ he.2
  exact ⟨Nat.le_trans hgrown.1 hdepth, Nat.le_trans hgrown.2 hsize⟩

end Expr

namespace Definition

variable {α : Type} [Scalar α] {d : Definition α}

/-- The replacements of a definition are read within the default limits. -/
def IsWithinStandard (d : Definition α) : Prop :=
  ∀ (x : String) (e : Expr α), d.names[x]? = some e → e.IsWithin {}

/-- What a definition declares is within the default limits, whatever those of the set are. -/
theorem isWithinStandard_of_parse {text : String} (h : parse text = .ok d) :
    d.IsWithinStandard := by
  intro x e hx
  obtain ⟨read, hread⟩ := exists_text_of_getElem?_names h hx
  exact Expr.isWithin_of_parse hread

end Definition

namespace Edit

variable {α : Type}

/-- Whether an edit sets the limits. -/
def SetsLimits : Edit α → Prop
  | limits _ => True
  | _ => False

/-- Whether the replacements of an edit are within limits. -/
def ReplacesWithin [Scalar α] (m : Limits) : Edit α → Prop
  | name _ replacement => ∀ e : Expr α, Expr.parse replacement = .ok e → e.IsWithin m
  | load text => ∀ d : Definition α, Definition.parse text = .ok d →
      ∀ (x : String) (e : Expr α), d.names[x]? = some e → e.IsWithin m
  | _ => True

/-- The replacements of an edit are within limits if each of them satisfies this bound. -/
theorem replacesWithin_iff [Scalar α] {m : Limits} {edit : Edit α} :
    edit.ReplacesWithin m ↔ edit.Replaces (·.IsWithin m) := by
  cases edit <;> exact Iff.rfl

/-- The replacements of every edit are within the default limits. -/
theorem replacesWithin_standard [Scalar α] (edit : Edit α) : edit.ReplacesWithin {} :=
  replacesWithin_iff.mpr (edit.replaces_of_parse fun _ _ he => Expr.isWithin_of_parse he)

end Edit

namespace EquationSet

variable {α : Type} {s s' : EquationSet α} {l m : Limits}

/-- Whether every stored expression is within limits. -/
def StoresWithin (s : EquationSet α) (l : Limits) : Prop :=
  ∀ (i : Nat) (eq : Equation α), s.get? i = some eq → ∀ e, eq.expr? = some e → e.IsWithin l

/-- A set with the limits `l`, all of whose replacements are within `m`. -/
structure IsBounded (l m : Limits) (s : EquationSet α) : Prop where
  limits : s.limits = l
  names : ∀ (x : String) (e : Expr α), s.names[x]? = some e → e.IsWithin m
  stored : s.StoresWithin (l.grown m)

/-- The empty set keeps within all bounds. -/
theorem isBounded_withLimits (l m : Limits) :
    IsBounded l m (({} : EquationSet α).withLimits l) :=
  have hempty : (({} : EquationSet α).withLimits l).Satisfies (·.IsWithin m)
      (·.IsWithin (l.grown m)) := satisfies_of_empty
  ⟨rfl, hempty.names, hempty.stored⟩

variable [Scalar α] {edit : Edit α} {edits : List (Edit α)} {r : EditResult}

/-- Only an edit that sets the limits changes them. -/
theorem Step.limits_eq (h : s.Step edit r s') (hlimits : ¬edit.SetsLimits) :
    s'.limits = s.limits := by
  cases h with
  | limits => exact absurd trivial hlimits
  | _ => rfl

/-- A step keeps a bounded set bounded. -/
theorem IsBounded.step (hs : IsBounded l m s) (hm : 0 < m.size) (hlimits : ¬edit.SetsLimits)
    (hedit : edit.ReplacesWithin m) (h : s.Step edit r s') : IsBounded l m s' := by
  have hbounds : s.Satisfies (·.IsWithin m) (·.IsWithin (l.grown m)) := ⟨hs.names, hs.stored⟩
  have hkept : s'.Satisfies (·.IsWithin m) (·.IsWithin (l.grown m)) := by
    refine hbounds.step (fun names text e hnames he => ?_) (Edit.replacesWithin_iff.mp hedit) h
    rw [hs.limits] at he
    exact (Expr.isWithin_of_parseEquation he).substitute hm hnames
  exact ⟨(h.limits_eq hlimits).trans hs.limits, hkept.names, hkept.stored⟩

/-- A set is bounded as long as no edit sets its limits and all replacements are within theirs. -/
theorem isBounded_run (hm : 0 < m.size) (hlimits : ∀ edit ∈ edits, ¬edit.SetsLimits)
    (hedits : ∀ edit ∈ edits, edit.ReplacesWithin m) :
    IsBounded l m (run (({} : EquationSet α).withLimits l) edits) := by
  apply run_induction (isBounded_withLimits l m)
  intro t edit r t' hmem ht h
  exact ht.step hm (hlimits edit hmem) (hedits edit hmem) h

/-- What is stored under limits `l` with replacements within `m` is within the grown limits. In
particular it is within `l` itself if all replacements are single nodes. -/
theorem stored_isWithin (hm : 0 < m.size) (hlimits : ∀ edit ∈ edits, ¬edit.SetsLimits)
    (hedits : ∀ edit ∈ edits, edit.ReplacesWithin m) :
    (run (({} : EquationSet α).withLimits l) edits).StoresWithin (l.grown m) :=
  (isBounded_run hm hlimits hedits).stored

/-- A radius is replaced by half of a diameter, in an equation that just keeps within the limits. -/
theorem stored_isWithin_diameter :
    (∀ edit ∈ [Edit.name (α := Float) "r" "d/2", .equation "A = pi*r**2"],
      ¬edit.SetsLimits ∧ edit.ReplacesWithin ⟨2, 3⟩) ∧
    (run (({} : EquationSet Float).withLimits ⟨4, 7⟩)
      [.name "r" "d/2", .equation "A = pi*r**2"]).size = 1 ∧
    (run (({} : EquationSet Float).withLimits ⟨4, 7⟩)
      [.name "r" "d/2", .equation "A = pi*r**2"]).StoresWithin ⟨5, 21⟩ := by
  have hread : (Expr.parse "d/2" : Except (ParseError Float) (Expr Float)).toOption.all
      (fun e => e.depth ≤ 2 && e.size ≤ 3) = true := by decide +kernel
  have hedits : ∀ edit ∈ [Edit.name (α := Float) "r" "d/2", .equation "A = pi*r**2"],
      ¬edit.SetsLimits ∧ edit.ReplacesWithin ⟨2, 3⟩ := by
    rintro edit (_ | ⟨_, _ | ⟨_, ⟨⟩⟩⟩)
    · refine ⟨id, fun e he => ?_⟩
      simpa [he, Except.toOption, Expr.IsWithin] using hread
    · exact ⟨id, trivial⟩
  refine ⟨hedits, by decide +kernel, ?_⟩
  exact stored_isWithin (m := ⟨2, 3⟩) (by decide) (fun edit h => (hedits edit h).1)
    fun edit h => (hedits edit h).2

/-- Replacements are read within the default limits, so no edits exceed these bounds. -/
theorem stored_isWithin_standard (hlimits : ∀ edit ∈ edits, ¬edit.SetsLimits) :
    (run (({} : EquationSet α).withLimits l) edits).StoresWithin
      ⟨l.depth + 99, l.size * 10000⟩ :=
  (isBounded_run (m := {}) (by decide) hlimits fun edit _ => edit.replacesWithin_standard).stored

/-- The limits bound what is stored with a replacement for a variable exactly if the replacement is
a single node. -/
theorem limits_kept_iff {old new : String} {e : Expr α}
    (hold : Expr.parseEquation ⟨1, 1⟩ old = .ok (.symbol old : Expr α))
    (hnew : Expr.parse new = .ok e) :
    (∀ (l : Limits) (texts : List String),
      (run (({} : EquationSet α).withLimits l)
        (.name old new :: texts.map .equation)).StoresWithin l) ↔ e.size = 1 := by
  constructor
  · intro h
    -- Under limits of one node the text of a variable is accepted, and its replacement is stored.
    have hstored : (run (({} : EquationSet α).withLimits ⟨1, 1⟩)
        [.name old new, .equation old]).get? 0 = some (.ofExpr old e) := by
      have hread : Expr.parseEquation (after (({} : EquationSet α).withLimits ⟨1, 1⟩)
          (.name old new)).limits old = .ok (.symbol old : Expr α) := by
        rw [(Step.name hnew).after_eq]
        exact hold
      rw [run, List.foldl_cons, List.foldl_cons, (Step.equation hread).after_eq,
        (Step.name hnew).after_eq]
      simp [withLimits, push, get?, Expr.substitute]
    have hwithin := h ⟨1, 1⟩ [old] 0 _ hstored e rfl
    exact Nat.le_antisymm hwithin.2 e.size_pos
  · intro hsize l texts
    have hgrown : l.grown ⟨1, 1⟩ = l := by simp [Limits.grown]
    have hlimits : ∀ edit ∈ Edit.name old new :: texts.map (Edit.equation (α := α)),
        ¬edit.SetsLimits := by
      simp [Edit.SetsLimits]
    have hedits : ∀ edit ∈ Edit.name old new :: texts.map (Edit.equation (α := α)),
        edit.ReplacesWithin ⟨1, 1⟩ := by
      intro edit hmem
      rcases List.mem_cons.mp hmem with rfl | hmem
      · intro u hu
        obtain rfl := Except.ok.inj (hnew.symm.trans hu)
        exact ⟨hsize ▸ e.depth_le_size, Nat.le_of_eq hsize⟩
      · obtain ⟨text, -, rfl⟩ := List.mem_map.mp hmem
        trivial
    have hstored := (isBounded_run (l := l) Nat.one_pos hlimits hedits).stored
    rwa [hgrown] at hstored

/-- A replacement by a sum is stored whole under limits that the sum exceeds. -/
theorem not_storesWithin_of_sum :
    ¬(run (({} : EquationSet Float).withLimits ⟨1, 1⟩)
      [.name "x" "a+b", .equation "x"]).StoresWithin ⟨1, 1⟩ := by
  intro h
  have hsize : (((run (({} : EquationSet Float).withLimits ⟨1, 1⟩)
      [.name "x" "a+b", .equation "x"]).get? 0).bind Equation.expr?).map Expr.size = some 3 := by
    decide +kernel
  obtain ⟨e, he, hthree⟩ := Option.map_eq_some_iff.mp hsize
  obtain ⟨eq, heq, hexpr⟩ := Option.bind_eq_some_iff.mp he
  have hwithin := h 0 eq heq e hexpr
  exact absurd hwithin.2 (by simp [hthree])

end EquationSet

end ErrorBudget
