import ErrorBudget.Proofs.EquationSet.Steps
import ErrorBudget.Proofs.Names

/-!
# What edits preserve

A set that is built by edits is consistent (`Consistent`): its combinations refer to equations that
it has, and every equation comes with exactly its derivatives. Further edits move no equation and
change no combination that they do not redefine, and an edit that fails changes nothing (`Keeps`).
Both hold after every run, whichever of its edits succeed (`run_consistent_and_keeps`).

Consistency is preserved because every step preserves it. What an edit keeps follows from it: a
combination selects the same equations as before because all its indices existed already.
-/

set_option autoImplicit false

namespace ErrorBudget

/-- The partial derivatives of an expression are those with respect to its free variables. -/
structure Expr.IsDifferentiated {α : Type} [Scalar α] (e : Expr α)
    (partials : NameMap (Expr α)) : Prop where
  keys : ∀ x, x ∈ partials ↔ x ∈ e.vars
  values : ∀ (x : String) (d : Expr α), partials[x]? = some d → d = e.derive x

/-- The derivatives of an equation given by functions are those of its declared variables. -/
def Native.IsComplete {α : Type} (n : Native α) : Prop :=
  ∀ x, x ∈ n.partials ↔ x ∈ n.vars

namespace Equation

variable {α : Type}

/-- Functions make an equation exactly if their derivatives are those of the declared variables. -/
theorem ofNative_eq_ok_iff {n : Native α} {eq : Equation α} :
    ofNative n = .ok eq ↔ n.IsComplete ∧ eq = native n.label n.residual n.partials := by
  unfold ofNative Native.IsComplete
  split
  · rename_i x hx
    have hmem : x ∈ n.partials := Std.ExtTreeMap.mem_keys.mp (List.mem_of_find?_eq_some hx)
    have hundeclared : x ∉ n.vars := by simpa using List.find?_some hx
    simp only [reduceCtorEq, false_iff, not_and]
    intro h
    exact absurd ((h x).mp hmem) hundeclared
  · rename_i hdeclared
    have hsub : ∀ x ∈ n.partials, x ∈ n.vars := by simpa using hdeclared
    split
    · rename_i hnone
      have hsup : ∀ x ∈ n.vars, x ∈ n.partials := by simpa using hnone
      rw [and_iff_right fun x => ⟨hsub x, hsup x⟩, Except.ok.injEq, eq_comm]
    · rename_i names hsome
      simp only [reduceCtorEq, false_iff, not_and]
      intro h
      refine absurd ?_ hsome
      simpa using fun x hx => (h x).mpr hx

variable [Scalar α]

/-- An equation has exactly its derivatives, and if it is given by functions, then by an edit. -/
def IsFaithful (edits : List (Edit α)) : Equation α → Prop
  | symbolic _ residual partials => residual.IsDifferentiated partials
  | native label residual partials => ∃ n, Edit.native n ∈ edits ∧ n.IsComplete ∧
      n.label = label ∧ n.residual = residual ∧ n.partials = partials

/-- The derivatives that an equation computes are one for each variable of its expression. -/
theorem isDifferentiated_ofEntries (e : Expr α) :
    e.IsDifferentiated (NameMap.ofEntries (e.vars.toList.map fun x => (x, e.derive x))) where
  keys _ := NameMap.mem_ofEntries_map _
  values _ _ hd := NameMap.eq_of_getElem?_ofEntries_map _ hd

/-- An equation that is made of an expression has exactly its derivatives. -/
theorem isFaithful_ofExpr (edits : List (Edit α)) (label : String) (e : Expr α) :
    (ofExpr label e).IsFaithful edits :=
  isDifferentiated_ofEntries e

end Equation

namespace EquationSet

variable {α : Type}

section Selections

variable {s s' : EquationSet α}

/-- An equation behind appended ones was there before or is one of them. -/
theorem get?_eq_some_of_appended {new : List (Equation α)} {i : Nat} {eq : Equation α}
    (hnew : s'.equations = (s.appended new).equations) (h : s'.get? i = some eq) :
    s.get? i = some eq ∨ eq ∈ new := by
  simp only [get?, hnew, appended] at h
  by_cases hi : i < s.equations.size
  · rw [Array.getElem?_append_left hi] at h
    exact .inl h
  · rw [Array.getElem?_append_right (Nat.le_of_not_lt hi)] at h
    exact .inr (by simpa using Array.mem_of_getElem? h)

/-- Equations that all exist are found one for each index. -/
theorem filterMap_get? {is : List Nat} (h : ∀ i ∈ is, i < s.size) :
    (is.filterMap s.get?).map some = is.map s.get? := by
  induction is with
  | nil => rfl
  | cons i is ih =>
    obtain ⟨hi, his⟩ := List.forall_mem_cons.mp h
    obtain ⟨eq, heq⟩ : ∃ eq, s.get? i = some eq := ⟨_, Array.getElem?_eq_getElem hi⟩
    simp [heq, ih his]

/-- A combination selects the indices that are stored for it. -/
theorem combo_eq_ok_iff {name : String} {is : List Nat} :
    s.combo name = .ok is ↔ s.combos[name]? = some is := by
  unfold combo
  cases s.combos[name]? <;> simp

/-- A combination whose indices exist selects their equations. -/
theorem CombosBelow.exists_select_eq (h : CombosBelow s.size s.combos) {name : String}
    {is : List Nat} (his : s.combo name = .ok is) :
    ∃ eqs, s.select (some name) = .ok eqs ∧ eqs.map some = is.map s.get? :=
  ⟨is.filterMap s.get?, by rw [select, his]; rfl,
    filterMap_get? (h name is (combo_eq_ok_iff.mp his))⟩

/-- A combination whose indices exist selects the equation of each of them, in its order. -/
theorem CombosBelow.exists_select (h : CombosBelow s.size s.combos) {name : String} {is : List Nat}
    (his : s.combo name = .ok is) :
    ∃ eqs, s.select (some name) = .ok eqs ∧ eqs.length = is.length ∧
      ∀ (j : Nat) (hj : j < is.length), s.get? is[j] = eqs[j]? := by
  have hmap := filterMap_get? (h name is (combo_eq_ok_iff.mp his))
  refine ⟨is.filterMap s.get?, by simp [select, his, Except.map], ?_, fun j hj => ?_⟩
  · simpa using congrArg List.length hmap
  · have hentry : ((is.filterMap s.get?).map some)[j]? = (is.map s.get?)[j]? := by rw [hmap]
    cases hget : (is.filterMap s.get?)[j]? with
    | none => simp [hget, hj] at hentry
    | some eq => simpa [hget, hj] using hentry.symm

/-- A combination selects the same equations from a set that has them at the same indices. -/
theorem CombosBelow.select_eq (h : CombosBelow s.size s.combos)
    (hget : ∀ i < s.size, s'.get? i = s.get? i) {name : String}
    (hname : s'.combos[name]? = s.combos[name]?) :
    s'.select (some name) = s.select (some name) := by
  have hcombo : s'.combo name = s.combo name := by rw [combo, combo, hname]
  simp only [select, hcombo]
  cases his : s.combo name with
  | error e => rfl
  | ok is =>
    have hlt := h name is (combo_eq_ok_iff.mp his)
    exact congrArg Except.ok (List.filterMap_congr fun i hi => hget i (hlt i hi))

variable {R : Equation α → Equation α → Prop}

/-- Sets whose equations are related one by one find related equations at an index. -/
theorem rel_get? (h : List.Forall₂ R s.equations.toList s'.equations.toList) (i : Nat) :
    Option.Rel R (s.get? i) (s'.get? i) := by
  rw [get?, get?, ← Array.getElem?_toList, ← Array.getElem?_toList]
  generalize s.equations.toList = eqs, s'.equations.toList = eqs' at h
  induction h generalizing i with
  | nil => exact .none
  | cons hfirst _ ih =>
    cases i with
    | zero => exact .some hfirst
    | succ i => exact ih i

/-- Sets whose equations are related one by one select related equations. -/
theorem select_cases (h : List.Forall₂ R s.equations.toList s'.equations.toList)
    (hcombos : s'.combos = s.combos) (combo : Option String) :
    (∃ e, s.select combo = .error e ∧ s'.select combo = .error e) ∨
      ∃ eqs eqs', s.select combo = .ok eqs ∧ s'.select combo = .ok eqs' ∧
        List.Forall₂ R eqs eqs' := by
  cases combo with
  | none => exact .inr ⟨_, _, rfl, rfl, h⟩
  | some name =>
    have hcombo : s'.combo name = s.combo name := by rw [combo, combo, hcombos]
    simp only [select, hcombo]
    cases s.combo name with
    | error e => exact .inl ⟨e, rfl, rfl⟩
    | ok is =>
      refine .inr ⟨_, _, rfl, rfl, List.rel_filterMap (R := Eq) ?_ (List.forall₂_refl is)⟩
      rintro i _ rfl
      exact rel_get? h i

end Selections

variable [Scalar α]

/-- A set as it is after edits, some of which may have failed. -/
structure Consistent (edits : List (Edit α)) (s : EquationSet α) : Prop where
  /-- Combinations refer to equations of the set. -/
  below : CombosBelow s.size s.combos
  /-- Equations have exactly their derivatives. -/
  faithful : ∀ (i : Nat) (eq : Equation α), s.get? i = some eq → eq.IsFaithful edits
  /-- A combination selects the equation of each of its indices, in its order. -/
  selects : ∀ (name : String) (is : List Nat), s.combo name = .ok is →
    ∃ eqs, s.select (some name) = .ok eqs ∧ eqs.length = is.length ∧
      ∀ (j : Nat) (hj : j < is.length), s.get? is[j] = eqs[j]?

/-- The equation that an edit stores when it succeeds, if it stores one. -/
inductive Stores (s : EquationSet α) : Edit α → Equation α → Prop
  | equation {text e} (h : Expr.parseEquation s.limits text = .ok e) :
      Stores s (.equation text) (Equation.ofExpr text (e.substitute s.names))
  | native {n} (h : n.IsComplete) : Stores s (.native n) (.native n.label n.residual n.partials)

/-- The equations that an edit makes when it succeeds: read from a text within the limits, with
variables replaced, or given by functions. -/
inductive Makes (s : EquationSet α) (names : NameMap (Expr α)) : Edit α → Equation α → Prop
  | read {edit text e} (h : Expr.parseEquation s.limits text = .ok e) :
      Makes s names edit (Equation.ofExpr text (e.substitute names))
  | given {n} (h : n.IsComplete) : Makes s names (.native n) (.native n.label n.residual n.partials)

/-- The combinations to which an edit gives a new meaning. -/
inductive Redefines : Edit α → String → Prop
  | combo {name is} : Redefines (.combo name is) name
  | load {text name} {d : Definition α} (hd : Definition.parse text = .ok d)
      (h : name ∈ d.combos) : Redefines (.load text) name

/-- What an edit keeps of the set, whether it succeeds or not. -/
structure Keeps (s : EquationSet α) (edit : Edit α) : Prop where
  /-- The equations stay at their indices. -/
  equations : ∀ i < s.size, (s.after edit).get? i = s.get? i
  /-- A combination that is not redefined selects the same equations. -/
  combos : ∀ name, ¬Redefines edit name →
    (s.after edit).select (some name) = s.select (some name)
  /-- An edit that reports an index has stored its equation there, behind all others. -/
  stored : ∀ (i : Nat) (s' : EquationSet α), s.apply edit = .ok (.stored i, s') →
    i = s.size ∧ s'.size = s.size + 1 ∧ ∃ eq, s.Stores edit eq ∧ s'.get? i = some eq
  /-- An edit that stores an equation reports its index. -/
  reported : ∀ eq, s.Stores edit eq → s.apply edit = .ok (.stored s.size, s.after edit)
  /-- An edit that fails changes nothing. -/
  failed : ∀ e, s.apply edit = .error e → s.after edit = s

section Steps

variable {s s' : EquationSet α} {edits : List (Edit α)} {edit : Edit α} {r : EditResult}

/-- A step puts equations behind those of the set, and its replacements are those of the set that it
leaves. -/
theorem Step.exists_appended (h : s.Step edit r s') :
    ∃ new : List (Equation α), s'.equations = (s.appended new).equations ∧
      ∀ eq ∈ new, s.Makes s'.names edit eq := by
  cases h with
  | @equation text e he =>
    refine ⟨[Equation.ofExpr text (e.substitute s.names)], equations_push s _, fun eq heq => ?_⟩
    obtain rfl := List.mem_singleton.mp heq
    exact .read he
  | @native n eq hn =>
    obtain ⟨hcomplete, rfl⟩ := Equation.ofNative_eq_ok_iff.mp hn
    refine ⟨[.native n.label n.residual n.partials], equations_push s _, fun eq heq => ?_⟩
    obtain rfl := List.mem_singleton.mp heq
    exact .given hcomplete
  | load hd hes hbelow =>
    refine ⟨_, rfl, fun eq heq => ?_⟩
    obtain ⟨text, e, he, rfl⟩ := mem_madeFrom hes heq
    exact .read he
  | combo | name | limits => exact ⟨[], by simp [appended, withLimits], by simp⟩

/-- An equation that an edit makes has exactly its derivatives. -/
theorem Makes.isFaithful {names : NameMap (Expr α)} {eq : Equation α} (h : s.Makes names edit eq)
    (hedit : edit ∈ edits) : eq.IsFaithful edits := by
  cases h with
  | read he => exact Equation.isFaithful_ofExpr edits _ _
  | @given n hn => exact ⟨n, hedit, hn, rfl, rfl, rfl⟩

/-- A step leaves every stored equation where it is. -/
theorem Step.get?_eq (h : s.Step edit r s') {i : Nat} (hi : i < s.size) :
    s'.get? i = s.get? i := by
  obtain ⟨new, hnew, -⟩ := h.exists_appended
  have hi' : i < s.equations.size := hi
  simp only [get?, hnew, appended, Array.getElem?_append_left hi']

/-- A step drops no equation. -/
theorem Step.size_le (h : s.Step edit r s') : s.size ≤ s'.size := by
  obtain ⟨new, hnew, -⟩ := h.exists_appended
  simp [size, hnew, appended]

/-- An equation after a step was there before or is one that the step has made. -/
theorem Step.get?_eq_some (h : s.Step edit r s') {i : Nat} {eq : Equation α}
    (heq : s'.get? i = some eq) : s.get? i = some eq ∨ s.Makes s'.names edit eq := by
  obtain ⟨new, hnew, hmade⟩ := h.exists_appended
  exact (get?_eq_some_of_appended hnew heq).imp_right (hmade eq)

/-- A step keeps the indices of combinations below the number of equations. -/
theorem Step.combosBelow (h : s.Step edit r s') (hs : CombosBelow s.size s.combos) :
    CombosBelow s'.size s'.combos := by
  have hgrown : CombosBelow s'.size s.combos := fun name is hname i hi =>
    Nat.lt_of_lt_of_le (hs name is hname i hi) h.size_le
  cases h with
  | equation | native | name | limits => exact hgrown
  | @combo name is his =>
    intro other js hother j hj
    rw [Std.ExtTreeMap.getElem?_insert] at hother
    split at hother
    · obtain rfl := Option.some.inj hother
      exact his j hj
    · exact hgrown other js hother j hj
  | @load text d es hd hes hbelow =>
    intro name is hname i hi
    rcases getElem?_shifted hname with hold | ⟨entry, hentry, -, rfl⟩
    · exact hgrown name is hold i hi
    · -- The indices of a definition count its own equations, which stand behind the others.
      obtain ⟨k, hk, rfl⟩ := List.mem_map.mp hi
      have hlookup : d.combos[entry.1]? = some entry.2 :=
        Std.ExtTreeMap.mem_toList_iff_getElem?_eq_some.mp hentry
      have hlt := hbelow entry.1 entry.2 hlookup k hk
      have hsize : (s.loaded d es).size = s.size + d.equations.length := by
        simp [size, loaded, length_madeFrom hes]
      omega

/-- A step leaves every combination that it does not redefine. -/
theorem Step.getElem?_combos (h : s.Step edit r s') {name : String}
    (hname : ¬Redefines edit name) : s'.combos[name]? = s.combos[name]? := by
  cases h with
  | equation | native | name | limits => rfl
  | @combo other is his =>
    have hne : other ≠ name := by
      rintro rfl
      exact hname .combo
    simp [Std.ExtTreeMap.getElem?_insert, hne]
  | @load text d es hd hes hbelow =>
    refine getElem?_shifted_of_not_mem fun entry hentry heq => hname (.load hd ?_)
    have hlookup : d.combos[entry.1]? = some entry.2 :=
      Std.ExtTreeMap.mem_toList_iff_getElem?_eq_some.mp hentry
    exact Std.ExtTreeMap.mem_iff_isSome_getElem?.mpr (by simp [← heq, hlookup])

/-- A step keeps a set consistent. -/
theorem Consistent.step (hs : Consistent edits s) (hedit : edit ∈ edits) (h : s.Step edit r s') :
    Consistent edits s' := by
  refine ⟨h.combosBelow hs.below, fun i eq heq => ?_, fun name is his =>
    (h.combosBelow hs.below).exists_select his⟩
  rcases h.get?_eq_some heq with hold | hmade
  · exact hs.faithful i eq hold
  · exact hmade.isFaithful hedit

/-- To store an equation is to put it behind all others, under the next index. -/
theorem Stores.apply_eq {eq : Equation α} (h : s.Stores edit eq) :
    s.apply edit = .ok (.stored s.size, (s.push eq).2) := by
  cases h with
  | equation he => exact apply_eq_ok_iff.mpr (.equation he)
  | native hn => exact apply_eq_ok_iff.mpr (.native (Equation.ofNative_eq_ok_iff.mpr ⟨hn, rfl⟩))

/-- A step that reports an index has stored an equation there. -/
theorem Step.exists_stores {i : Nat} (h : s.Step edit (.stored i) s') :
    i = s.size ∧ ∃ eq, s.Stores edit eq ∧ s' = (s.push eq).2 := by
  cases h with
  | equation he => exact ⟨rfl, _, .equation he, rfl⟩
  | native hn =>
    obtain ⟨hcomplete, rfl⟩ := Equation.ofNative_eq_ok_iff.mp hn
    exact ⟨rfl, _, .native hcomplete, rfl⟩

end Steps

/-- A consistent set keeps its equations and combinations under every edit. -/
theorem Consistent.keeps {edits : List (Edit α)} {s : EquationSet α} (hs : Consistent edits s)
    (edit : Edit α) : Keeps s edit := by
  have hget : ∀ i < s.size, (s.after edit).get? i = s.get? i := by
    intro i hi
    rcases s.after_cases edit with ⟨r, hstep⟩ | hsame
    · exact hstep.get?_eq hi
    · rw [hsame]
  refine ⟨hget, fun name hname => ?_, fun i s' h => ?_, fun eq h => ?_, fun e h => ?_⟩
  · have hcombos : (s.after edit).combos[name]? = s.combos[name]? := by
      rcases s.after_cases edit with ⟨r, hstep⟩ | hsame
      · exact hstep.getElem?_combos hname
      · rw [hsame]
    exact hs.below.select_eq hget hcombos
  · obtain ⟨rfl, eq, hstores, rfl⟩ := (apply_eq_ok_iff.mp h).exists_stores
    exact ⟨rfl, size_push s eq, eq, hstores, get?_push s eq⟩
  · rw [after_eq_of_apply_eq_ok h.apply_eq, h.apply_eq]
  · exact after_eq_of_apply_eq_error h

/-- Every set that edits lead to is consistent. -/
theorem consistent_run (edits : List (Edit α)) : Consistent edits (run {} edits) := by
  have hbelow : CombosBelow 0 ({} : EquationSet α).combos := fun name is hname => by simp at hname
  have hstart : Consistent edits ({} : EquationSet α) :=
    ⟨hbelow, fun i eq heq => by simp [get?] at heq, fun name is his => hbelow.exists_select his⟩
  exact run_induction hstart fun t edit r t' hedit ht h => ht.step hedit h

/-- After every run of edits, succeeding or failing, the set is consistent, and every further edit
keeps what it does not redefine. -/
theorem run_consistent_and_keeps (edits : List (Edit α)) :
    Consistent edits (run {} edits) ∧ ∀ edit, Keeps (run {} edits) edit :=
  ⟨consistent_run edits, (consistent_run edits).keeps⟩

end EquationSet

end ErrorBudget
