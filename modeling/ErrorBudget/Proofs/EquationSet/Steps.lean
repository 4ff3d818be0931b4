import ErrorBudget.Proofs.EquationSet.InPlace

/-!
# Steps of a set of equations

`EquationSet.Step` says everything that an edit can do when it succeeds: one constructor for each
kind of edit, with the conditions under which it succeeds. An edit succeeds exactly along a step
(`apply_eq_ok_iff`), so whatever all steps preserve is preserved by a run (`run_induction`).

A definition is loaded in one step. Its texts are read with the replacements of the set and its own
ones, and its combinations are counted from the size that the set had before. The indices are added
in a machine word, and it is the sum that must be the index of an equation.
-/

set_option autoImplicit false

namespace ErrorBudget

namespace EquationSet

variable {α : Type}

/-- Every index of every combination is below `n`. -/
def CombosBelow (n : Nat) (combos : NameMap (List Nat)) : Prop :=
  ∀ (name : String) (is : List Nat), combos[name]? = some is → ∀ i ∈ is, i < n

/-- Every index of every combination is below `n` when it is counted from `offset`. -/
def MovedBelow (offset n : Nat) (combos : NameMap (List Nat)) : Prop :=
  ∀ (name : String) (is : List Nat), combos[name]? = some is → ∀ i ∈ is, addIndex offset i < n

/-- The set with some equations behind its own. -/
def appended (s : EquationSet α) (eqs : List (Equation α)) : EquationSet α :=
  { s with equations := s.equations ++ eqs.toArray }

/-- To push an equation is to put a list of one behind the others. -/
theorem equations_push (s : EquationSet α) (eq : Equation α) :
    (s.push eq).2.equations = (s.appended [eq]).equations := by
  simp [push, appended]

/-- The combinations with those of a list added, which count from `offset`. -/
def shifted (offset : Nat) (combos : NameMap (List Nat)) (added : List (String × List Nat)) :
    NameMap (List Nat) :=
  added.foldl (fun all entry => all.insert entry.1 (entry.2.map (addIndex offset))) combos

section Combos

/-- A combination is named exactly if an equation is at each of its indices. -/
theorem addCombo_eq_ok_iff {s s' : EquationSet α} {name : String} {is : List Nat} :
    s.addCombo name is = .ok s' ↔
      (∀ i ∈ is, i < s.size) ∧ s' = { s with combos := s.combos.insert name is } := by
  unfold addCombo
  split
  · rename_i i hi
    have hmem := List.mem_of_find?_eq_some hi
    have hle : s.size ≤ i := by simpa using List.find?_some hi
    simp only [reduceCtorEq, false_iff, not_and]
    intro h
    exact absurd (h i hmem) (Nat.not_lt.mpr hle)
  · rename_i hnone
    have hlt : ∀ i ∈ is, i < s.size := by simpa using hnone
    rw [and_iff_right hlt, Except.ok.injEq, eq_comm]

/-- Combinations are added one by one; all their indices must exist. -/
theorem addCombos_eq_ok_iff {s s' : EquationSet α} {offset : Nat}
    {added : List (String × List Nat)} :
    s.addCombos offset added = .ok s' ↔
      (∀ entry ∈ added, ∀ i ∈ entry.2, addIndex offset i < s.size) ∧
        s' = { s with combos := shifted offset s.combos added } := by
  induction added generalizing s with
  | nil => simp [addCombos, shifted, eq_comm]
  | cons entry added ih =>
    obtain ⟨name, is⟩ := entry
    unfold addCombos
    rw [List.forall_mem_cons]
    constructor
    · intro h
      split at h
      · contradiction
      · rename_i t hadd
        obtain ⟨his, rfl⟩ := addCombo_eq_ok_iff.mp hadd
        obtain ⟨hadded, rfl⟩ := ih.mp h
        exact ⟨⟨by simpa using his, hadded⟩, rfl⟩
    · rintro ⟨⟨his, hadded⟩, rfl⟩
      rw [addCombo_eq_ok_iff.mpr ⟨by simpa using his, rfl⟩]
      exact ih.mpr ⟨hadded, rfl⟩

/-- The combinations of a map are those of its entries. -/
theorem forall_moved_lt_iff {offset n : Nat} {combos : NameMap (List Nat)} :
    (∀ entry ∈ combos.toList, ∀ i ∈ entry.2, addIndex offset i < n) ↔
      MovedBelow offset n combos := by
  simp only [MovedBelow, Prod.forall, Std.ExtTreeMap.mem_toList_iff_getElem?_eq_some]

/-- A combination is one of those that were there or one of those that were added. -/
theorem getElem?_shifted {offset : Nat} {combos : NameMap (List Nat)}
    {added : List (String × List Nat)} {name : String} {is : List Nat}
    (h : (shifted offset combos added)[name]? = some is) :
    combos[name]? = some is ∨
      ∃ entry ∈ added, entry.1 = name ∧ is = entry.2.map (addIndex offset) := by
  induction added generalizing combos with
  | nil => exact .inl h
  | cons entry added ih =>
    have hrest : (shifted offset
      (combos.insert entry.1 (entry.2.map (addIndex offset))) added)[name]? = some is := h
    rcases ih hrest with hold | hnew
    · rw [Std.ExtTreeMap.getElem?_insert] at hold
      split at hold
      · rename_i heq
        exact .inr ⟨entry, List.mem_cons_self, by simpa using heq, (Option.some.inj hold).symm⟩
      · exact .inl hold
    · obtain ⟨other, hmem, hother⟩ := hnew
      exact .inr ⟨other, List.mem_cons_of_mem _ hmem, hother⟩

/-- A combination that is not redefined stays what it is. -/
theorem getElem?_shifted_of_not_mem {offset : Nat} {combos : NameMap (List Nat)}
    {added : List (String × List Nat)} {name : String} (h : ∀ entry ∈ added, entry.1 ≠ name) :
    (shifted offset combos added)[name]? = combos[name]? := by
  induction added generalizing combos with
  | nil => rfl
  | cons entry added ih =>
    obtain ⟨hentry, hadded⟩ := List.forall_mem_cons.mp h
    calc (shifted offset (combos.insert entry.1 (entry.2.map (addIndex offset))) added)[name]?
      _ = (combos.insert entry.1 (entry.2.map (addIndex offset)))[name]? := ih hadded
      _ = combos[name]? := by simp [Std.ExtTreeMap.getElem?_insert, hentry]

end Combos

variable [Scalar α]

/-- The equations of some texts, given the expressions that were read from them. -/
def madeFrom (names : NameMap (Expr α)) (texts : List String) (es : List (Expr α)) :
    List (Equation α) :=
  List.zipWith (fun text e => Equation.ofExpr text (e.substitute names)) texts es

/-- The set with everything that a definition says, given the expressions that were read from its
texts. -/
def loaded (s : EquationSet α) (d : Definition α) (es : List (Expr α)) : EquationSet α where
  equations := s.equations ++ (madeFrom (s.names ∪ d.names) d.equations es).toArray
  combos := shifted s.size s.combos d.combos.toList
  names := s.names ∪ d.names
  limits := s.limits

/-- The expressions that are read from some texts. -/
def AreRead (limits : Limits) (texts : List String) (es : List (Expr α)) : Prop :=
  List.Forall₂ (fun text e => Expr.parseEquation limits text = .ok e) texts es

/-- What an edit does when it succeeds: its result, and the set that it leaves. -/
inductive Step (s : EquationSet α) : Edit α → EditResult → EquationSet α → Prop
  /-- A text is read within the limits, and then its variables are replaced. -/
  | equation {text e} (h : Expr.parseEquation s.limits text = .ok e) :
      Step s (.equation text) (.stored s.size)
        (s.push (Equation.ofExpr text (e.substitute s.names))).2
  | native {n eq} (h : Equation.ofNative n = .ok eq) :
      Step s (.native n) (.stored s.size) (s.push eq).2
  | combo {name is} (h : ∀ i ∈ is, i < s.size) :
      Step s (.combo name is) .done { s with combos := s.combos.insert name is }
  | load {text d es} (hd : Definition.parse text = .ok d) (hes : AreRead s.limits d.equations es)
      (h : MovedBelow s.size (s.size + d.equations.length) d.combos) :
      Step s (.load text) .done (s.loaded d es)
  | name {old replacement e} (h : Expr.parse replacement = .ok e) :
      Step s (.name old replacement) .done { s with names := s.names.insert old e }
  | limits {limits} : Step s (.limits limits) .done (s.withLimits limits)

section Loading

/-- One equation is made of each text. -/
theorem length_madeFrom {limits : Limits} {names : NameMap (Expr α)} {texts : List String}
    {es : List (Expr α)} (h : AreRead limits texts es) :
    (madeFrom names texts es).length = texts.length := by
  have hlength : texts.length = es.length := List.Forall₂.length_eq h
  simp [madeFrom, hlength]

/-- Each equation is made from the expression that was read from its text. -/
theorem mem_madeFrom {limits : Limits} {names : NameMap (Expr α)} {texts : List String}
    {es : List (Expr α)} (h : AreRead limits texts es) {eq : Equation α}
    (heq : eq ∈ madeFrom names texts es) :
    ∃ text e, Expr.parseEquation limits text = .ok e ∧
      eq = Equation.ofExpr text (e.substitute names) := by
  induction h with
  | nil => simp [madeFrom] at heq
  | @cons text e texts es hread hrest ih =>
    rcases List.mem_cons.mp heq with rfl | hmem
    · exact ⟨text, e, hread, rfl⟩
    · exact ih hmem

/-- An equation is added exactly if its text can be read; it is stored with its variables
replaced. -/
theorem addEquation_eq_ok_iff {s s' : EquationSet α} {text : String} {i : Nat} :
    s.addEquation text = .ok (i, s') ↔ ∃ e : Expr α, Expr.parseEquation s.limits text = .ok e ∧
      s.push (Equation.ofExpr text (e.substitute s.names)) = (i, s') := by
  unfold addEquation
  cases (Expr.parseEquation s.limits text : Except (Error α) (Expr α)) <;> simp

/-- Texts are added one behind the other, each with the replacements of the set. -/
theorem addEquations_eq_ok_iff {s s' : EquationSet α} {texts : List String} :
    s.addEquations texts = .ok s' ↔
      ∃ es, AreRead s.limits texts es ∧ s' = s.appended (madeFrom s.names texts es) := by
  induction texts generalizing s with
  | nil => simp [addEquations, AreRead, appended, madeFrom, eq_comm]
  | cons text texts ih =>
    unfold addEquations
    constructor
    · intro h
      split at h
      · contradiction
      · rename_i i t hadd
        obtain ⟨e, he, hpush⟩ := addEquation_eq_ok_iff.mp hadd
        obtain ⟨es, hes, rfl⟩ := ih.mp h
        obtain ⟨-, rfl⟩ := Prod.mk.inj hpush
        exact ⟨e :: es, .cons he hes, by simp [appended, madeFrom]⟩
    · rintro ⟨es, hes, rfl⟩
      obtain ⟨e, es, he, hrest, rfl⟩ := List.forall₂_cons_left_iff.mp hes
      rw [addEquation_eq_ok_iff.mpr ⟨e, he, rfl⟩]
      exact ih.mpr ⟨es, hrest, by simp [appended, madeFrom]⟩

/-- A definition is loaded exactly if it can be read, all its texts can, and its combinations refer
to equations of the set once their indices have been moved. -/
theorem load_eq_ok_iff {s s' : EquationSet α} {text : String} :
    s.load text = .ok s' ↔
      ∃ (d : Definition α) (es : List (Expr α)), Definition.parse text = .ok d ∧
        AreRead s.limits d.equations es ∧
        MovedBelow s.size (s.size + d.equations.length) d.combos ∧ s' = s.loaded d es := by
  have hsize : ∀ {d : Definition α} {es : List (Expr α)}, AreRead s.limits d.equations es →
      (appended { s with names := s.names ∪ d.names }
        (madeFrom (s.names ∪ d.names) d.equations es)).size = s.size + d.equations.length := by
    intro d es hes
    simp [size, appended, length_madeFrom hes]
  unfold load
  simp only [bind_eq_ok_iff, addEquations_eq_ok_iff, addCombos_eq_ok_iff]
  constructor
  · rintro ⟨d, hd, t, ⟨es, hes, rfl⟩, hcombos, rfl⟩
    rw [hsize hes] at hcombos
    exact ⟨d, es, hd, hes, forall_moved_lt_iff.mp hcombos, rfl⟩
  · rintro ⟨d, es, hd, hes, hbelow, rfl⟩
    refine ⟨d, hd, _, ⟨es, hes, rfl⟩, ?_, rfl⟩
    rw [hsize hes]
    exact forall_moved_lt_iff.mpr hbelow

end Loading

section Edits

variable {s s' : EquationSet α} {edit : Edit α} {r : EditResult}

/-- An edit succeeds exactly along a step. -/
theorem apply_eq_ok_iff : s.apply edit = .ok (r, s') ↔ s.Step edit r s' := by
  constructor
  · intro h
    -- Each edit is opened down to what has to be read for it to succeed.
    cases edit with
    | equation text =>
      obtain ⟨⟨i, t⟩, hadd, heq⟩ := map_eq_ok_iff.mp ((apply_equation s text).symm.trans h)
      obtain ⟨e, he, hpush⟩ := addEquation_eq_ok_iff.mp hadd
      obtain ⟨rfl, rfl⟩ := Prod.mk.inj hpush
      obtain ⟨rfl, rfl⟩ := Prod.mk.inj heq
      exact .equation he
    | native n =>
      obtain ⟨⟨i, t⟩, hadd, heq⟩ := map_eq_ok_iff.mp ((apply_native s n).symm.trans h)
      obtain ⟨eq, hn, hpush⟩ := map_eq_ok_iff.mp hadd
      obtain ⟨rfl, rfl⟩ := Prod.mk.inj hpush
      obtain ⟨rfl, rfl⟩ := Prod.mk.inj heq
      exact .native hn
    | combo name is =>
      obtain ⟨t, hadd, heq⟩ := map_eq_ok_iff.mp ((apply_combo s name is).symm.trans h)
      obtain ⟨his, rfl⟩ := addCombo_eq_ok_iff.mp hadd
      obtain ⟨rfl, rfl⟩ := Prod.mk.inj heq
      exact .combo his
    | load text =>
      obtain ⟨t, hload, heq⟩ := map_eq_ok_iff.mp ((apply_load s text).symm.trans h)
      obtain ⟨d, es, hd, hes, hbelow, rfl⟩ := load_eq_ok_iff.mp hload
      obtain ⟨rfl, rfl⟩ := Prod.mk.inj heq
      exact .load hd hes hbelow
    | name old replacement =>
      obtain ⟨t, hname, heq⟩ := map_eq_ok_iff.mp ((apply_name s old replacement).symm.trans h)
      unfold withName at hname
      split at hname
      · contradiction
      · rename_i e he
        obtain rfl := Except.ok.inj hname
        obtain ⟨rfl, rfl⟩ := Prod.mk.inj heq
        exact .name he
    | limits limits =>
      obtain ⟨rfl, rfl⟩ := Prod.mk.inj (Except.ok.inj h)
      exact .limits
  · intro h
    cases h with
    | equation he =>
      rw [apply_equation, addEquation_eq_ok_iff.mpr ⟨_, he, rfl⟩]
      rfl
    | native hn =>
      rw [apply_native, addNative, hn]
      rfl
    | combo his =>
      rw [apply_combo, addCombo_eq_ok_iff.mpr ⟨his, rfl⟩]
      rfl
    | load hd hes hbelow =>
      rw [apply_load, load_eq_ok_iff.mpr ⟨_, _, hd, hes, hbelow, rfl⟩]
      rfl
    | name he =>
      rw [apply_name, withName, he]
      rfl
    | limits => rfl

/-- An edit that succeeds leaves the set that it reports. -/
theorem after_eq_of_apply_eq_ok (h : s.apply edit = .ok (r, s')) : s.after edit = s' := by
  rw [after, exec_eq, h, outcome]

/-- An edit that fails leaves the set as it was. -/
theorem after_eq_of_apply_eq_error {e : Error α} (h : s.apply edit = .error e) :
    s.after edit = s := by
  rw [after, exec_eq, h, outcome]

/-- An edit leaves what its step leads to. -/
theorem Step.after_eq (h : s.Step edit r s') : s.after edit = s' :=
  after_eq_of_apply_eq_ok (apply_eq_ok_iff.mpr h)

/-- An edit takes a step or changes nothing. -/
theorem after_cases (s : EquationSet α) (edit : Edit α) :
    (∃ r, s.Step edit r (s.after edit)) ∨ s.after edit = s := by
  cases h : s.apply edit with
  | error e => exact .inr (after_eq_of_apply_eq_error h)
  | ok reported =>
    refine .inl ⟨reported.1, ?_⟩
    rw [after_eq_of_apply_eq_ok h]
    exact apply_eq_ok_iff.mp h

end Edits

/-- To carry out two lists of edits is to carry out one behind the other. -/
theorem run_append (s : EquationSet α) (edits more : List (Edit α)) :
    s.run (edits ++ more) = (s.run edits).run more :=
  List.foldl_append

/-- What every step of a run preserves holds after the run. -/
theorem run_induction {P : EquationSet α → Prop} {s : EquationSet α} {edits : List (Edit α)}
    (start : P s)
    (step : ∀ t edit r t', edit ∈ edits → P t → t.Step edit r t' → P t') : P (s.run edits) := by
  induction edits generalizing s with
  | nil => exact start
  | cons edit edits ih =>
    have hnext : P (s.after edit) := by
      rcases s.after_cases edit with ⟨r, hstep⟩ | hsame
      · exact step s edit r _ List.mem_cons_self start hstep
      · rwa [hsame]
    exact ih hnext fun t other r t' hmem => step t other r t' (List.mem_cons_of_mem _ hmem)

end EquationSet

end ErrorBudget
