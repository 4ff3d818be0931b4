import ErrorBudget.Double
import ErrorBudget.Proofs.Definition.Composition
import ErrorBudget.Proofs.EquationSet.Invariant

/-!
# Loading a definition

A set into which a definition is loaded holds what it held before and what the definition says, and
nothing else (`EquationSet.Loads`). The new equations stand behind the others, read within the
limits of the set, with its replacements where the definition has none of its own. If a definition
is not loaded, then it cannot be read, or one of its equations cannot, or one of its combinations
lists an equation that it does not have (`EquationSet.LoadFault`), and the set stays as it was.

A combination of the definition lists its own equations, and its indices are moved to where these
stand now. They are moved in a machine word. As long as no sum leaves it, and only then, the
combination selects from the new equations (`EquationSet.load_run`). An index that is too large for
that wraps around and selects an equation that was there before, where it should be refused
(`EquationSet.not_loads_of_wrapped`).

That other combinations select what they selected before is due to an invariant: their indices are
those of equations that the set already had.
-/

set_option autoImplicit false

namespace ErrorBudget

namespace Definition

variable {α : Type} [Scalar α]

/-- Where a text cannot be read, the failure names one of its lines. -/
theorem exists_of_parse_eq_error {text : String} {e : Error α}
    (h : (parse text : Except (Error α) (Definition α)) = .error e) :
    ∃ line fault, e = .definition line fault := by
  obtain ⟨n, -, fault, he, -⟩ := exists_firstLines_of_parse h
  exact ⟨n + 1, fault, he⟩

end Definition

namespace EquationSet

section Combos

variable {offset : Nat} {combos : NameMap (List Nat)} {added : List (String × List Nat)}

/-- A combination that is added is found under its name, if no other one is added under it. -/
theorem getElem?_shifted_of_mem {entry : String × List Nat} (hentry : entry ∈ added)
    (hunique : ∀ other ∈ added, other.1 = entry.1 → other = entry) :
    (shifted offset combos added)[entry.1]? = some (entry.2.map (addIndex offset)) := by
  induction added generalizing combos with
  | nil => simp at hentry
  | cons first added ih =>
    show (shifted offset
      (combos.insert first.1 (first.2.map (addIndex offset))) added)[entry.1]? = _
    by_cases hmem : entry ∈ added
    · exact ih hmem fun other hother => hunique other (List.mem_cons_of_mem _ hother)
    · obtain rfl : entry = first := (List.mem_cons.mp hentry).resolve_right hmem
      have hother : ∀ other ∈ added, other.1 ≠ entry.1 := by
        intro other hother hname
        exact hmem (hunique other (List.mem_cons_of_mem _ hother) hname ▸ hother)
      rw [getElem?_shifted_of_not_mem hother, Std.ExtTreeMap.getElem?_insert_self]

/-- The indices of the combinations of a definition are moved. -/
theorem getElem?_shifted_toList {own : NameMap (List Nat)} {name : String} {is : List Nat}
    (h : own[name]? = some is) :
    (shifted offset combos own.toList)[name]? = some (is.map (addIndex offset)) := by
  have hmem : (name, is) ∈ own.toList := Std.ExtTreeMap.mem_toList_iff_getElem?_eq_some.mpr h
  refine getElem?_shifted_of_mem hmem ?_
  rintro ⟨other, js⟩ hother rfl
  have hjs := Std.ExtTreeMap.mem_toList_iff_getElem?_eq_some.mp hother
  rw [Option.some.inj (hjs.symm.trans h)]

end Combos

variable {α : Type} [Scalar α]

/-- A set that holds what another one holds and what a definition says. An index in the definition
stands for the equation at the index `place` makes of it. -/
structure Loads (place : Nat → Nat) (s : EquationSet α) (d : Definition α) (s' : EquationSet α) :
    Prop where
  size : s'.size = s.size + d.equations.length
  kept : ∀ i < s.size, s'.get? i = s.get? i
  /-- The new equations are those of the texts, in their order. -/
  added : ∀ (i : Nat) (text : String), d.equations[i]? = some text →
    ∃ e : Expr α, Expr.parseEquation s.limits text = .ok e ∧
      s'.get? (s.size + i) = some (Equation.ofExpr text (e.substitute s'.names))
  names : ∀ x : String, s'.names[x]? = d.names[x]?.or s.names[x]?
  /-- A combination of the definition selects the equation of each of its indices, in its order. -/
  combos : ∀ (name : String) (is : List Nat), d.combos[name]? = some is →
    (∀ i ∈ is, place i < s'.size) ∧ s'.combo name = .ok (is.map place) ∧
      ∃ eqs, s'.select (some name) = .ok eqs ∧ eqs.map some = is.map fun i => s'.get? (place i)
  /-- All others select what they selected. -/
  others : ∀ name ∉ d.combos, s'.select (some name) = s.select (some name)
  limits : s'.limits = s.limits

/-- Why a text is not loaded: it is not a definition, one of its equations cannot be read, or one of
its combinations lists an equation that it does not have. -/
inductive LoadFault (s : EquationSet α) (text : String) : Error α → Prop
  | definition {line fault}
      (h : (Definition.parse text : Except (Error α) (Definition α)) =
        .error (.definition line fault)) :
      LoadFault s text (.definition line fault)
  | equation {d : Definition α} {entry e} (hd : Definition.parse text = .ok d)
      (hentry : entry ∈ d.equations)
      (he : (Expr.parseEquation s.limits entry : Except (Error α) (Expr α)) = .error e) :
      LoadFault s text e
  | combo {d : Definition α} {name is i} (hd : Definition.parse text = .ok d)
      (his : d.combos[name]? = some is) (hi : i ∈ is) (hle : d.equations.length ≤ i) :
      LoadFault s text (.invalidCombo name (addIndex s.size i) (s.size + d.equations.length))

section Failures

variable {s : EquationSet α} {e : Error α}

/-- Several equations are refused for the text of one of them. -/
theorem exists_of_addEquations_eq_error {texts : List String}
    (h : s.addEquations texts = .error e) : ∃ text ∈ texts,
      (Expr.parseEquation s.limits text : Except (Error α) (Expr α)) = .error e := by
  induction texts generalizing s with
  | nil => contradiction
  | cons text texts ih =>
    unfold addEquations at h
    cases hread : (Expr.parseEquation s.limits text : Except (Error α) (Expr α)) with
    | error e' =>
      rw [addEquation, hread] at h
      obtain rfl := Except.error.inj h
      exact ⟨text, List.mem_cons_self, hread⟩
    | ok u =>
      rw [addEquation, hread] at h
      obtain ⟨text', hmem, he⟩ := ih h
      exact ⟨text', List.mem_cons_of_mem _ hmem, he⟩

omit [Scalar α] in
/-- A combination is refused for an index of its own at which no equation is. -/
theorem eq_of_addCombo_eq_error {name : String} {is : List Nat}
    (h : s.addCombo name is = .error e) :
    ∃ i ∈ is, s.size ≤ i ∧ e = .invalidCombo name i s.size := by
  unfold addCombo at h
  split at h
  · rename_i i hi
    have hle : s.size ≤ i := by simpa using List.find?_some hi
    exact ⟨i, List.mem_of_find?_eq_some hi, hle, (Except.error.inj h).symm⟩
  · contradiction

omit [Scalar α] in
/-- Several combinations are refused for an index of one of them, counted from the offset. -/
theorem exists_of_addCombos_eq_error {offset : Nat} {added : List (String × List Nat)}
    (h : s.addCombos offset added = .error e) : ∃ entry ∈ added, ∃ i ∈ entry.2,
      s.size ≤ addIndex offset i ∧ e = .invalidCombo entry.1 (addIndex offset i) s.size := by
  induction added generalizing s with
  | nil => contradiction
  | cons entry added ih =>
    unfold addCombos at h
    split at h
    · rename_i e' hadd
      obtain ⟨j, hj, hle, rfl⟩ := eq_of_addCombo_eq_error hadd
      obtain ⟨i, hi, rfl⟩ := List.mem_map.mp hj
      obtain rfl := Except.error.inj h
      exact ⟨entry, List.mem_cons_self, i, hi, hle, rfl⟩
    · rename_i t hadd
      -- An added combination leaves the equations as they are.
      obtain ⟨-, rfl⟩ := addCombo_eq_ok_iff.mp hadd
      obtain ⟨entry', hmem, hfault⟩ := ih h
      exact ⟨entry', List.mem_cons_of_mem _ hmem, hfault⟩

/-- Every failure to load a definition has one of the three reasons. -/
theorem loadFault_of_load {text : String} (h : s.load text = .error e) : s.LoadFault text e := by
  rcases bind_eq_error_iff.mp h with hparse | ⟨d, hd, h⟩
  · obtain ⟨line, fault, rfl⟩ := Definition.exists_of_parse_eq_error hparse
    exact .definition hparse
  · rcases bind_eq_error_iff.mp h with hequations | ⟨t, ht, hcombos⟩
    · obtain ⟨entry, hentry, he⟩ := exists_of_addEquations_eq_error hequations
      exact .equation hd hentry he
    · obtain ⟨es, hes, rfl⟩ := addEquations_eq_ok_iff.mp ht
      obtain ⟨⟨name, is⟩, hentry, i, hi, hle, rfl⟩ := exists_of_addCombos_eq_error hcombos
      have hsize : (appended { s with names := s.names ∪ d.names }
          (madeFrom (s.names ∪ d.names) d.equations es)).size = s.size + d.equations.length := by
        simp [size, appended, length_madeFrom hes]
      rw [hsize] at hle ⊢
      have hown : d.equations.length ≤ i := by
        have hsum := addIndex_le s.size i
        omega
      exact .combo hd (Std.ExtTreeMap.mem_toList_iff_getElem?_eq_some.mp hentry) hi hown

end Failures

section Success

variable {s : EquationSet α} {d : Definition α} {es : List (Expr α)}

/-- The equation of a text stands where the text stands. -/
theorem AreRead.getElem?_madeFrom {limits : Limits} {names : NameMap (Expr α)}
    {texts : List String} (h : AreRead limits texts es) {i : Nat} {text : String}
    (htext : texts[i]? = some text) : ∃ e : Expr α, Expr.parseEquation limits text = .ok e ∧
      (madeFrom names texts es)[i]? = some (Equation.ofExpr text (e.substitute names)) := by
  induction h generalizing i with
  | nil => simp at htext
  | @cons first e texts es hread hrest ih =>
    cases i with
    | zero =>
      obtain rfl : first = text := by simpa using htext
      exact ⟨e, hread, rfl⟩
    | succ i => exact ih (by simpa using htext)

/-- Behind the equations of the set stand those of the definition. -/
theorem get?_loaded_add (i : Nat) :
    (s.loaded d es).get? (s.size + i) = (madeFrom (s.names ∪ d.names) d.equations es)[i]? := by
  rw [get?, loaded, size, Array.getElem?_append_right (Nat.le_add_right ..)]
  simp

/-- A definition that is loaded into a consistent set says what is added. -/
theorem Consistent.loads {edits : List (Edit α)} (hs : Consistent edits s) {text : String}
    (hd : Definition.parse text = .ok d) (hes : AreRead s.limits d.equations es)
    (hbelow : MovedBelow s.size (s.size + d.equations.length) d.combos) :
    s.Loads (addIndex s.size) d (s.loaded d es) := by
  have hstep : s.Step (.load text) .done (s.loaded d es) := .load hd hes hbelow
  have hsize : (s.loaded d es).size = s.size + d.equations.length := by
    simp [size, loaded, length_madeFrom hes]
  refine ⟨hsize, fun i => hstep.get?_eq, ?_, ?_, ?_, ?_, rfl⟩
  · intro i entry hentry
    obtain ⟨e, he, hmade⟩ := hes.getElem?_madeFrom hentry
    exact ⟨e, he, (get?_loaded_add i).trans hmade⟩
  · intro x
    exact Std.ExtTreeMap.getElem?_union
  · intro name is his
    have hcombo : (s.loaded d es).combo name = .ok (is.map (addIndex s.size)) :=
      combo_eq_ok_iff.mpr (getElem?_shifted_toList his)
    obtain ⟨eqs, hselect, heqs⟩ := (hstep.combosBelow hs.below).exists_select_eq hcombo
    refine ⟨fun i hi => hsize ▸ hbelow name is his i hi, hcombo, eqs, hselect, ?_⟩
    simpa [Function.comp_def] using heqs
  · intro name hname
    refine hs.below.select_eq (fun i => hstep.get?_eq) (hstep.getElem?_combos ?_)
    intro hredefines
    cases hredefines with
    | load hd' hmem =>
      obtain rfl := Except.ok.inj (hd.symm.trans hd')
      exact hname hmem

/-- What a set holds depends on where the indices in the definition are placed, and on nothing
else. -/
theorem Loads.congr {place place' : Nat → Nat} {s' : EquationSet α} (h : s.Loads place d s')
    (hplace : ∀ (name : String) (is : List Nat), d.combos[name]? = some is →
      ∀ i ∈ is, place i = place' i) : s.Loads place' d s' where
  size := h.size
  kept := h.kept
  added := h.added
  names := h.names
  others := h.others
  limits := h.limits
  combos name is his := by
    have heq : ∀ i ∈ is, place i = place' i := hplace name is his
    obtain ⟨hlt, hcombo, eqs, hselect, heqs⟩ := h.combos name is his
    refine ⟨fun i hi => heq i hi ▸ hlt i hi, ?_, eqs, hselect, ?_⟩
    · rw [hcombo, List.map_congr_left heq]
    · rw [heqs]
      exact List.map_congr_left fun i hi => by rw [heq i hi]

/-- Combinations that are listed under the same names at two sets of places are at the same ones. -/
theorem Loads.place_eq {place place' : Nat → Nat} {s' : EquationSet α} (h : s.Loads place d s')
    (h' : s.Loads place' d s') {name : String} {is : List Nat} (his : d.combos[name]? = some is)
    {i : Nat} (hi : i ∈ is) : place i = place' i := by
  have hmap : is.map place = is.map place' :=
    Except.ok.inj ((h.combos name is his).2.1.symm.trans (h'.combos name is his).2.1)
  exact List.map_inj_left.mp hmap i hi

/-- Indices that are moved in a machine word select the new equations exactly if no sum leaves
it. -/
theorem Loads.counts_iff {s' : EquationSet α} (h : s.Loads (addIndex s.size) d s') :
    s.Loads (s.size + ·) d s' ↔ CombosBelow (largestIndex + 1 - s.size) d.combos := by
  constructor
  · intro hcounts name is his i hi
    have hsum := addIndex_eq_add_iff.mp (h.place_eq hcounts his hi)
    omega
  · intro hbelow
    refine h.congr fun name is his i hi => addIndex_eq_add_iff.mpr ?_
    have hlt := hbelow name is his i hi
    omega

end Success

/-- A definition that is loaded into a set that has been built by edits says what is added. -/
theorem exists_loads_of_load {edits : List (Edit α)} {text : String} {s' : EquationSet α}
    (h : (run {} edits).load text = .ok s') : ∃ d, Definition.parse text = .ok d ∧
      (run {} edits).Loads (addIndex (run {} edits).size) d s' := by
  obtain ⟨d, es, hd, hes, hbelow, rfl⟩ := load_eq_ok_iff.mp h
  exact ⟨d, hd, (consistent_run edits).loads hd hes hbelow⟩

/-- Loading a definition into a set that has been built by edits adds what the definition says, or
fails for one of the reasons for which it can and changes nothing. The combinations count from the
new equations exactly if the sums of their indices can be written as indices. -/
theorem load_run (edits : List (Edit α)) (text : String) :
    (∀ s', (run {} edits).load text = .ok s' →
      ∃ d, Definition.parse text = .ok d ∧
        (run {} edits).Loads (addIndex (run {} edits).size) d s' ∧
        ((run {} edits).Loads ((run {} edits).size + ·) d s' ↔
          CombosBelow (largestIndex + 1 - (run {} edits).size) d.combos)) ∧
    ∀ e, (run {} edits).load text = .error e →
      (run {} edits).LoadFault text e ∧ (run {} edits).after (.load text) = run {} edits := by
  constructor
  · intro s' h
    obtain ⟨d, hd, hloads⟩ := exists_loads_of_load h
    exact ⟨d, hd, hloads, hloads.counts_iff⟩
  · intro e h
    refine ⟨loadFault_of_load h, after_eq_of_apply_eq_error (e := e) ?_⟩
    rw [apply_load, h]
    rfl

/-- A second definition counts its equations from the first one's, keeps the replacement of `r`, and
gives `area` a new meaning. -/
theorem load_run_twice :
    ∃ (first second : String) (s' : EquationSet Float) (d : Definition Float),
      (run {} [.load first]).load second = .ok s' ∧ Definition.parse second = .ok d ∧
      (run {} [.load first]).Loads (fun i => size (α := Float) (run {} [.load first]) + i) d s' ∧
      d.combos["area"]? = some [1, 0] ∧ s'.combo "area" = .ok [2, 1] ∧
      s'.names["r"]? = (run {} [.load first]).names["r"]? ∧ (∃ e, s'.names["r"]? = some e) := by
  let first := "[equations]\nA = r\n[names]\nr: d/2\n[combos]\narea: 0"
  let second := "[equations]\nV = A*h\nC = r\n[combos]\narea: 1 0"
  let s : EquationSet Float := run {} [.load first]
  have hrun : ((Definition.parse second : Except (Error Float) (Definition Float)).toOption.map
      fun d => (d.combos.toList, d.names["r"]?.isNone), s.size, s.names["r"]?.isSome,
        (s.load second).isOk) = (some ([("area", [1, 0])], true), 1, true, true) := by
    decide +kernel
  simp only [Prod.mk.injEq] at hrun
  obtain ⟨hparsed, hsize, hr, hok⟩ := hrun
  obtain ⟨d, hd, hentries⟩ := Option.map_eq_some_iff.mp hparsed
  obtain ⟨hcombos, hname⟩ := Prod.mk.inj hentries
  obtain ⟨s', hs'⟩ := exists_eq_ok_of_isOk hok
  obtain ⟨d', hd', -, hiff⟩ := (load_run [.load first] second).1 s' hs'
  obtain rfl : d = d' := Except.ok.inj ((toOption_eq_some_iff.mp hd).symm.trans hd')
  have hlookup : ∀ {name is}, d.combos[name]? = some is ↔ name = "area" ∧ is = [1, 0] := by
    intro name is
    rw [← Std.ExtTreeMap.mem_toList_iff_getElem?_eq_some, hcombos, List.mem_singleton,
      Prod.mk.injEq]
  have hloads : s.Loads (s.size + ·) d s' := by
    refine hiff.mpr fun name is his i hi => ?_
    obtain ⟨-, rfl⟩ := hlookup.mp his
    show i < 18446744073709551615 + 1 - s.size
    have hle : i ≤ 1 := by
      revert i
      decide
    omega
  have hcombo : d.combos["area"]? = some [1, 0] := hlookup.mpr ⟨rfl, rfl⟩
  have harea : s'.combo "area" = .ok ([1, 0].map (s.size + ·)) :=
    (hloads.combos "area" [1, 0] hcombo).2.1
  have hkept : s'.names["r"]? = s.names["r"]? := by
    rw [hloads.names "r", Option.isNone_iff_eq_none.mp hname, Option.none_or]
  refine ⟨first, second, s', d, hs', hd', hloads, hcombo, ?_, hkept, ?_⟩
  · rw [harea, hsize]
    rfl
  · rw [hkept]
    exact Option.isSome_iff_exists.mp hr

/-- Behind one equation, the largest index wraps around: a combination that lists it in a definition
of a single equation is accepted and selects the equation that was there before. -/
theorem not_loads_of_wrapped :
    ∃ (text : String) (s' : EquationSet Float) (d : Definition Float),
      (run {} [.equation "x = y"]).load text = .ok s' ∧ Definition.parse text = .ok d ∧
      d.equations.length = 1 ∧ d.combos["c"]? = some [18446744073709551615] ∧
      s'.combo "c" = .ok [0] ∧
      ¬(run {} [.equation "x = y"]).Loads
        (fun i => size (α := Float) (run {} [.equation "x = y"]) + i) d s' := by
  let text := "[equations]\nu = v\n[combos]\nc: 18446744073709551615"
  let s : EquationSet Float := run {} [.equation "x = y"]
  have hrun : ((Definition.parse text : Except (Error Float) (Definition Float)).toOption.map
      fun d => (d.equations.length, d.combos["c"]?), s.size, (s.load text).isOk) =
        (some (1, some [18446744073709551615]), 1, true) := by
    decide +kernel
  simp only [Prod.mk.injEq] at hrun
  obtain ⟨hparsed, hsize, hok⟩ := hrun
  obtain ⟨d, hd, hentries⟩ := Option.map_eq_some_iff.mp hparsed
  obtain ⟨hlength, hcombo⟩ := Prod.mk.inj hentries
  obtain ⟨s', hs'⟩ := exists_eq_ok_of_isOk hok
  obtain ⟨d', hd', hloads⟩ := exists_loads_of_load hs'
  obtain rfl : d = d' := Except.ok.inj ((toOption_eq_some_iff.mp hd).symm.trans hd')
  have hselected : s'.combo "c" = .ok ([18446744073709551615].map (addIndex s.size)) :=
    (hloads.combos "c" _ hcombo).2.1
  refine ⟨text, s', d, hs', hd', hlength, hcombo, ?_, fun hcounts => ?_⟩
  · rw [hselected, hsize]
    rfl
  · have hsum := hloads.place_eq hcounts hcombo List.mem_cons_self
    rw [hsize] at hsum
    exact absurd hsum (by decide)

end EquationSet

end ErrorBudget
