import ErrorBudget.Definition
import ErrorBudget.Proofs.Names
import ErrorBudget.Proofs.Outcome

/-!
# What a definition says

A text lists equations and, under its names, entries: lines whose key is read as a variable and
whose rest is read as an expression (`Definition.Declares`). The definition that is read from the
text has these equations and keeps these entries under their keys (`Definition.declares_of_parse`).
-/

set_option autoImplicit false

namespace ErrorBudget

/-- What is related on the left of some elements. -/
theorem exists_of_forall₂ {α β : Type} {R : α → β → Prop} {as : List α} {bs : List β}
    (h : List.Forall₂ R as bs) : ∀ b ∈ bs, ∃ a, R a b := by
  induction h with
  | nil => simp
  | cons hab _ ih => exact List.forall_mem_cons.mpr ⟨⟨_, hab⟩, ih⟩

namespace Definition

variable {α : Type}

/-- The lines under the headers of one section, without comments and outer blanks; the first line
stands in the section `current`. -/
def linesUnder (s : Section) : Option Section → List (List Char) → List (List Char)
  | _, [] => []
  | current, line :: lines =>
    let line := content line
    if line.isEmpty then linesUnder s current lines
    else
      match header? line with
      | some header => linesUnder s (Section.ofHeader? (String.ofList header)) lines
      | none => (if current = some s then [line] else []) ++ linesUnder s current lines

/-- An entry under the names: the key of its line, the variable that the key is read as, and the
expression that is declared for it. -/
structure NameEntry (α : Type) where
  key : String
  name : String
  replacement : Expr α

namespace NameEntry

/-- Whether the key is the name of the variable and nothing else. -/
def isPlain (n : NameEntry α) : Bool := n.key = n.name

/-- What entries keep: the replacement of each under its key, of two with one key the later. -/
def kept (entries : List (NameEntry α)) : NameMap (Expr α) :=
  NameMap.ofEntries (entries.map fun n => (n.key, n.replacement))

/-- What entries declare: the replacement of each for its variable, of two for one variable the
later. -/
def declared (entries : List (NameEntry α)) : NameMap (Expr α) :=
  NameMap.ofEntries (entries.map fun n => (n.name, n.replacement))

end NameEntry

variable [Scalar α]

/-- A line is read as an entry. -/
def ReadsEntry (line : List Char) (n : NameEntry α) : Prop :=
  ∃ new, entry (α := α) line = .ok (n.key, new) ∧
    (Expr.parse n.key : Except (ParseError α) (Expr α)) = .ok (.symbol n.name) ∧
    Expr.parse (String.ofList new) = .ok n.replacement

/-- A text lists some equations and some entries under its names, wherever their sections stand. -/
structure Declares (text : String) (texts : List String) (entries : List (NameEntry α)) :
    Prop where
  equations : texts = (linesUnder .equations none (textLines text.toList)).map String.ofList
  names : List.Forall₂ ReadsEntry (linesUnder .names none (textLines text.toList)) entries

/-- What a definition gains from lines under its equations and under its names. -/
structure Gains (d : Definition α) (stated named : List (List Char)) (d' : Definition α) :
    Prop where
  equations : d'.equations = d.equations ++ stated.map String.ofList
  names : ∃ entries : List (NameEntry α), List.Forall₂ ReadsEntry named entries ∧
    d'.names = d.names.insertMany (entries.map fun n => (n.key, n.replacement))

section Gains

variable {d d' d'' : Definition α} {stated stated' named named' : List (List Char)}

/-- A definition gains nothing over itself. -/
theorem Gains.refl (d : Definition α) : Gains d [] [] d :=
  ⟨by simp, [], .nil, by simp⟩

/-- What is gained in two steps is gained together, in this order. -/
theorem Gains.trans (h : Gains d stated named d') (h' : Gains d' stated' named' d'') :
    Gains d (stated ++ stated') (named ++ named') d'' := by
  obtain ⟨entries, hentries, hnames⟩ := h.names
  obtain ⟨entries', hentries', hnames'⟩ := h'.names
  refine ⟨by simp [h.equations, h'.equations], entries ++ entries', ?_, ?_⟩
  · exact List.rel_append hentries hentries'
  · rw [hnames', hnames, List.map_append, Std.ExtTreeMap.insertMany_append]

/-- A replacement is declared for a text that is read as a variable. -/
theorem exists_name_of_replacement {old : String} {new : List Char} {e : Expr α}
    (h : replacement old new = .ok e) :
    ∃ name, (Expr.parse old : Except (ParseError α) (Expr α)) = .ok (.symbol name) ∧
      Expr.parse (String.ofList new) = .ok e := by
  unfold replacement at h
  split at h
  · rename_i name hname
    split at h
    · contradiction
    · exact ⟨name, hname, mapError_eq_ok_iff.mp h⟩
  · contradiction

namespace Progress

variable {p p' : Progress α} {line : List Char}

/-- A line adds to the section that it stands in. -/
theorem gains_of_item (h : p.item line = .ok d) :
    Gains p.collected (if p.current = some .equations then [line] else [])
      (if p.current = some .names then [line] else []) d := by
  unfold item at h
  dsimp only at h
  split at h
  · contradiction
  · rename_i hcurrent
    obtain rfl := Except.ok.inj h
    rw [hcurrent]
    exact ⟨rfl, [], .nil, by simp⟩
  · rename_i hcurrent
    obtain ⟨⟨old, new⟩, hentry, h⟩ := bind_eq_ok_iff.mp h
    obtain ⟨e, he, h⟩ := bind_eq_ok_iff.mp h
    obtain rfl := Except.ok.inj h
    obtain ⟨name, hname, hnew⟩ := exists_name_of_replacement he
    rw [hcurrent]
    refine ⟨by simp, [⟨old, name, e⟩], .cons ⟨new, hentry, hname, hnew⟩ .nil, ?_⟩
    simp
  · rename_i hcurrent
    obtain ⟨⟨combo, rest⟩, -, h⟩ := bind_eq_ok_iff.mp h
    obtain ⟨is, -, h⟩ := bind_eq_ok_iff.mp h
    obtain rfl := Except.ok.inj h
    rw [hcurrent]
    exact ⟨by simp, [], .nil, by simp⟩

/-- A line that is read adds what stands in it, and the lines behind it stand in the section that it
leaves. -/
theorem gains_of_step (h : p.step line = .ok p') :
    ∃ stated named, Gains p.collected stated named p'.collected ∧
      ∀ lines, linesUnder .equations p.current (line :: lines) =
          stated ++ linesUnder .equations p'.current lines ∧
        linesUnder .names p.current (line :: lines) =
          named ++ linesUnder .names p'.current lines := by
  unfold step at h
  dsimp only at h
  split at h
  · rename_i hempty
    obtain rfl := Except.ok.inj h
    exact ⟨[], [], .refl _, fun lines => by simp [linesUnder, hempty]⟩
  · rename_i hempty
    split at h
    · rename_i header hheader
      split at h
      · rename_i s hs
        obtain rfl := Except.ok.inj h
        exact ⟨[], [], .refl _, fun lines => by simp [linesUnder, hempty, hheader, hs]⟩
      · contradiction
    · rename_i hheader
      obtain ⟨d, hd, rfl⟩ := map_eq_ok_iff.mp h
      exact ⟨_, _, gains_of_item hd, fun lines => by simp [linesUnder, hempty, hheader]⟩

/-- Lines add what stands under their equations and names. -/
theorem gains_of_steps {number : Nat} {lines : List (List Char)}
    (h : p.steps number lines = .ok p') :
    Gains p.collected (linesUnder .equations p.current lines)
      (linesUnder .names p.current lines) p'.collected := by
  induction lines generalizing p number with
  | nil =>
    obtain rfl := Except.ok.inj h
    exact .refl _
  | cons line lines ih =>
    unfold steps at h
    split at h
    · contradiction
    · rename_i next hnext
      obtain ⟨stated, named, hgains, hlines⟩ := gains_of_step hnext
      rw [(hlines lines).1, (hlines lines).2]
      exact hgains.trans (ih h)

end Progress

end Gains

/-- A definition has the equations of its text, and keeps the entries of its text under their
keys. -/
theorem declares_of_parse {text : String} {d : Definition α} (h : parse text = .ok d) :
    ∃ entries, Declares text d.equations entries ∧ d.names = NameEntry.kept entries := by
  obtain ⟨p, hp, rfl⟩ := map_eq_ok_iff.mp h
  obtain ⟨hequations, entries, hentries, hnames⟩ := Progress.gains_of_steps hp
  refine ⟨entries, ⟨by simpa using hequations, hentries⟩, ?_⟩
  rw [hnames, NameEntry.kept, NameMap.ofEntries, Std.ExtTreeMap.ofList_eq_insertMany_empty]

section Entries

variable {line : List Char} {n : NameEntry α} {entries : List (NameEntry α)} {x : String}

/-- A line is read in one way, and so is a text. -/
theorem ReadsEntry.unique {n' : NameEntry α} (h : ReadsEntry line n) (h' : ReadsEntry line n') :
    n = n' := by
  obtain ⟨key, name, replacement⟩ := n
  obtain ⟨key', name', replacement'⟩ := n'
  obtain ⟨new, hentry, hname, hnew⟩ := h
  obtain ⟨new', hentry', hname', hnew'⟩ := h'
  obtain ⟨rfl, rfl⟩ := Prod.mk.inj (Except.ok.inj (hentry.symm.trans hentry'))
  obtain rfl := Expr.symbol.inj (Except.ok.inj (hname.symm.trans hname'))
  obtain rfl := Except.ok.inj (hnew.symm.trans hnew')
  rfl

/-- A text declares one list of equations and one list of entries only. -/
theorem Declares.unique {text : String} {texts texts' : List String}
    {entries' : List (NameEntry α)} (h : Declares text texts entries)
    (h' : Declares text texts' entries') : texts = texts' ∧ entries = entries' := by
  refine ⟨h.equations.trans h'.equations.symm, ?_⟩
  have hentries : Relator.RightUnique (ReadsEntry (α := α)) := fun _ _ _ => ReadsEntry.unique
  exact hentries.forall₂ h.names h'.names

/-- Every declared entry is read from a line. -/
theorem Declares.exists_line {text : String} {texts : List String}
    (h : Declares text texts entries) : ∀ n ∈ entries, ∃ line, ReadsEntry line n :=
  exists_of_forall₂ h.names

omit [Scalar α] in
/-- The declared names are those of the entries. -/
theorem mem_declared : x ∈ NameEntry.declared entries ↔ ∃ n ∈ entries, n.name = x := by
  simp [NameEntry.declared, NameMap.ofEntries, Std.ExtTreeMap.mem_ofList]

omit [Scalar α] in
/-- What is kept under a key is the replacement of an entry. -/
theorem exists_of_getElem?_kept {e : Expr α} (h : (NameEntry.kept entries)[x]? = some e) :
    ∃ n ∈ entries, n.key = x ∧ n.replacement = e := by
  obtain ⟨n, hn, heq⟩ := List.mem_map.mp (NameMap.mem_of_getElem?_ofEntries h)
  exact ⟨n, hn, Prod.mk.inj heq⟩

omit [Scalar α] in
/-- What is declared for a variable is the replacement of one of its entries. -/
theorem exists_of_getElem?_declared {e : Expr α}
    (h : (NameEntry.declared entries)[x]? = some e) :
    ∃ n ∈ entries, n.name = x ∧ n.replacement = e := by
  obtain ⟨n, hn, heq⟩ := List.mem_map.mp (NameMap.mem_of_getElem?_ofEntries h)
  exact ⟨n, hn, Prod.mk.inj heq⟩

end Entries

/-- The replacements of a definition have been read from texts. -/
theorem exists_text_of_getElem?_names {text x : String} {d : Definition α} {e : Expr α}
    (h : parse text = .ok d) (hx : d.names[x]? = some e) : ∃ input, Expr.parse input = .ok e := by
  obtain ⟨entries, hdeclares, hnames⟩ := declares_of_parse h
  rw [hnames] at hx
  obtain ⟨n, hn, -, rfl⟩ := exists_of_getElem?_kept hx
  obtain ⟨line, new, -, -, hnew⟩ := hdeclares.exists_line n hn
  exact ⟨_, hnew⟩

end Definition

end ErrorBudget
