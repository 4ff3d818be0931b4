import ErrorBudget.Definition
import ErrorBudget.Double
import ErrorBudget.Proofs.Names
import ErrorBudget.Proofs.Outcome
import ErrorBudget.Proofs.Text.Lines

/-!
# Definitions in one text

A definition text may be continued by another one that opens its own section. What is read from the
longer text is what each of the two says (`Definition.followedBy`), and a failure in the second is
the same failure, at the line where it stands now. That the second text starts with a header is
what keeps the section in which the first one ends from reaching into it: up to a header, lines do
not depend on what came before (`Progress.steps_congr`), and afterwards what has been collected is
only carried along (`Progress.steps_behind`).

Where a text is refused, the failure is due to its first lines: those in front of the line that the
failure names are a definition, and with this line the same failure appears.
-/

set_option autoImplicit false

namespace ErrorBudget

namespace Definition

variable {α : Type}

/-- A definition with another one behind it: the equations of both, with the replacements and the
combinations of the second where it has one of its own. -/
def followedBy (d d' : Definition α) : Definition α where
  equations := d.equations ++ d'.equations
  names := d.names ∪ d'.names
  combos := d.combos ∪ d'.combos

/-- The first of some lines that says anything is a header. Lines that say nothing at all open a
section, too. -/
def LinesOpenSection (lines : List (List Char)) : Prop :=
  ((lines.map content).find? fun line => !line.isEmpty).all (fun line => (header? line).isSome) =
    true

/-- The first line of a text that is neither blank nor a comment is a header. -/
def OpensSection (text : String) : Prop := LinesOpenSection (textLines text.toList)

/-- Whether a text opens a section can be computed from its first line with content. -/
instance (text : String) : Decidable (OpensSection text) := inferInstanceAs (Decidable (_ = true))

/-- The number of lines of a text. -/
def lineCount (text : String) : Nat := (textLines text.toList).length

/-- A failure that stands a number of lines further down. -/
def lowered (k : Nat) : Error α → Error α
  | .definition line fault => .definition (line + k) fault
  | e => e

/-- Behind an empty line the lines still open a section. -/
theorem LinesOpenSection.tail {line : List Char} {lines : List (List Char)}
    (h : LinesOpenSection (line :: lines)) (hempty : (content line).isEmpty = true) :
    LinesOpenSection lines := by
  simpa [LinesOpenSection, hempty] using h

/-- The first line with content that opens a section is a header. -/
theorem LinesOpenSection.isSome_header? {line : List Char} {lines : List (List Char)}
    (h : LinesOpenSection (line :: lines)) (hempty : ¬(content line).isEmpty = true) :
    (header? (content line)).isSome = true := by
  simpa [LinesOpenSection, hempty] using h

namespace Progress

/-- What has been read, behind a definition. -/
def behind (d : Definition α) (p : Progress α) : Progress α :=
  { p with collected := d.followedBy p.collected }

variable [Scalar α] {p : Progress α} {number : Nat}

/-- Lines are read one by one, each under its number. -/
theorem steps_cons (p : Progress α) (number : Nat) (line : List Char) (lines : List (List Char)) :
    p.steps number (line :: lines) =
      (p.step line).mapError (.definition number) >>= fun q => q.steps (number + 1) lines := by
  rw [steps]
  cases p.step line <;> rfl

/-- Two lists of lines are read one behind the other, with the numbers going on. -/
theorem steps_append (p : Progress α) (number : Nat) (lines lines' : List (List Char)) :
    p.steps number (lines ++ lines') =
      p.steps number lines >>= fun q => q.steps (number + lines.length) lines' := by
  induction lines generalizing p number with
  | nil => rfl
  | cons line lines ih =>
    rw [List.cons_append, steps_cons, steps_cons]
    cases p.step line with
    | error fault => rfl
    | ok q =>
      show q.steps (number + 1) (lines ++ lines') =
        q.steps (number + 1) lines >>= fun q => q.steps (number + (lines.length + 1)) lines'
      rw [ih, Nat.add_assoc, Nat.add_comm 1]

section Behind

variable (d : Definition α)

/-- What a line says does not depend on what has been collected. -/
theorem item_behind (line : List Char) :
    (p.behind d).item line = (p.item line).map d.followedBy := by
  obtain ⟨current, collected⟩ := p
  unfold item behind
  cases current with
  | none => rfl
  | some s =>
    cases s with
    | equations => simp [followedBy, Except.map]
    | names =>
      dsimp only
      rw [map_bind]
      refine bind_congr_of_ok fun keyed _ => ?_
      rw [map_bind]
      refine bind_congr_of_ok fun e _ => ?_
      simp [followedBy, NameMap.union_insert, pure, Except.pure, Except.map]
    | combos =>
      dsimp only
      rw [map_bind]
      refine bind_congr_of_ok fun keyed _ => ?_
      rw [map_bind]
      refine bind_congr_of_ok fun is _ => ?_
      simp [followedBy, NameMap.union_insert, pure, Except.pure, Except.map]

/-- A line has the same effect behind an earlier definition. -/
theorem step_behind (line : List Char) :
    (p.behind d).step line = (p.step line).map (behind d) := by
  unfold step
  dsimp only
  split
  · rfl
  · split
    · split <;> rfl
    · rw [item_behind]
      cases p.item (content line) <;> rfl

/-- Lines behind a definition, wherever they stand. -/
theorem steps_behind (k : Nat) (lines : List (List Char)) :
    (p.behind d).steps (number + k) lines =
      ((p.steps number lines).map (behind d)).mapError (lowered k) := by
  induction lines generalizing p number with
  | nil => rfl
  | cons line lines ih =>
    rw [steps_cons, steps_cons, step_behind]
    cases p.step line with
    | error fault => rfl
    | ok q =>
      show (q.behind d).steps (number + k + 1) lines =
        ((q.steps (number + 1) lines).map (behind d)).mapError (lowered k)
      rw [← ih, Nat.add_right_comm]

end Behind

/-- Lines that open a section say the same in every section. -/
theorem steps_congr {lines : List (List Char)} (h : LinesOpenSection lines)
    (current current' : Option Section) (d : Definition α) :
    (steps ⟨current, d⟩ number lines).map collected =
      (steps ⟨current', d⟩ number lines).map collected := by
  induction lines generalizing number with
  | nil => rfl
  | cons line lines ih =>
    rw [steps_cons, steps_cons]
    unfold step
    dsimp only
    by_cases hempty : (content line).isEmpty = true
    · rw [if_pos hempty, if_pos hempty]
      exact ih (h.tail hempty)
    · rw [if_neg hempty, if_neg hempty]
      obtain ⟨header, hheader⟩ := Option.isSome_iff_exists.mp (h.isSome_header? hempty)
      -- A header replaces the section, so both sides go on alike.
      rw [hheader]

/-- Lines are refused because of one of them: those in front of it are read. -/
theorem exists_prefix_of_steps {lines : List (List Char)} {e : Error α}
    (h : p.steps number lines = .error e) :
    ∃ k < lines.length, ∃ fault, e = .definition (number + k) fault ∧
      (∃ q, p.steps number (lines.take k) = .ok q) ∧
      p.steps number (lines.take (k + 1)) = .error e := by
  induction lines generalizing p number with
  | nil => contradiction
  | cons line lines ih =>
    rw [steps_cons] at h
    cases hstep : p.step line with
    | error fault =>
      rw [hstep] at h
      obtain rfl := Except.error.inj h
      refine ⟨0, Nat.succ_pos _, fault, rfl, ⟨p, rfl⟩, ?_⟩
      rw [List.take_succ_cons, steps_cons, hstep]
      rfl
    | ok q =>
      rw [hstep] at h
      obtain ⟨k, hk, fault, he, ⟨r, hr⟩, hnext⟩ := ih h
      refine ⟨k + 1, Nat.succ_lt_succ hk, fault, ?_, ⟨r, ?_⟩, ?_⟩
      · rw [he, Nat.add_assoc, Nat.add_comm 1]
      · rw [List.take_succ_cons, steps_cons, hstep]
        exact hr
      · rw [List.take_succ_cons, steps_cons, hstep]
        exact hnext

end Progress

variable [Scalar α] {first second text : String} {d : Definition α}

/-- What is read from a text that is continued by another one. -/
theorem parse_append (hfirst : parse first = .ok d) (hend : first.toList.getLast? = some '\n')
    (hopens : OpensSection second) : parse (first ++ second) =
      ((parse second).map d.followedBy).mapError (lowered (lineCount first)) := by
  obtain ⟨p, hp, rfl⟩ := map_eq_ok_iff.mp hfirst
  have hempty : (⟨none, p.collected⟩ : Progress α) = Progress.behind p.collected {} := by
    simp [Progress.behind, followedBy, NameMap.union_empty]
  calc parse (first ++ second)
      = (p.steps (1 + lineCount first) (textLines second.toList)).map Progress.collected := by
        rw [parse, String.toList_append, textLines_append hend, Progress.steps_append, hp]
        rfl
    _ = (Progress.steps (Progress.behind p.collected {}) (1 + lineCount first)
          (textLines second.toList)).map Progress.collected := by
        rw [← hempty]
        exact Progress.steps_congr hopens p.current none p.collected
    _ = ((parse second).map p.collected.followedBy).mapError (lowered (lineCount first)) := by
        rw [Progress.steps_behind, parse]
        cases Progress.steps (α := α) {} 1 (textLines second.toList) <;> rfl

/-- The lines to which the failure of a text is due. -/
theorem exists_firstLines_of_parse {e : Error α} (h : parse text = .error e) :
    ∃ n < lineCount text, ∃ fault, e = .definition (n + 1) fault ∧
      (∃ d : Definition α, parse (String.ofList (firstLines n text.toList)) = .ok d) ∧
      parse (String.ofList (firstLines (n + 1) text.toList)) = .error e := by
  obtain ⟨k, hk, fault, he, ⟨q, hq⟩, hnext⟩ :=
    Progress.exists_prefix_of_steps (map_eq_error_iff.mp h)
  refine ⟨k, hk, fault, by rw [he, Nat.add_comm], ⟨q.collected, ?_⟩, ?_⟩
  · rw [parse, String.toList_ofList, textLines_firstLines, hq]
    rfl
  · rw [parse, String.toList_ofList, textLines_firstLines, hnext]
    rfl

/-- A definition text that ends at a line feed can be continued by a text that opens a section: if
the second text is read, so is the longer one, as both of them say, and if it is refused, so is the
longer one, for the same reason and at the same line, counted from its beginning. Of every refused
text, the lines in front of the line of the failure are read, and together with this line they are
refused with the same failure. -/
theorem parse_composes :
    (∀ (first second : String) (d : Definition α), parse first = .ok d →
      first.toList.getLast? = some '\n' → OpensSection second →
      (∀ d', parse second = .ok d' → parse (first ++ second) = .ok (d.followedBy d')) ∧
      ∀ line fault, parse (α := α) second = .error (.definition line fault) →
        parse (α := α) (first ++ second) = .error (.definition (line + lineCount first) fault)) ∧
    ∀ (text : String) (e : Error α), parse text = .error e →
      ∃ n < lineCount text, ∃ fault, e = .definition (n + 1) fault ∧
        (∃ d : Definition α, parse (String.ofList (firstLines n text.toList)) = .ok d) ∧
        parse (String.ofList (firstLines (n + 1) text.toList)) = .error e := by
  constructor
  · intro first second d hfirst hend hopens
    constructor
    · intro d' hsecond
      rw [parse_append hfirst hend hopens, hsecond]
      rfl
    · intro line fault hsecond
      rw [parse_append hfirst hend hopens, hsecond]
      rfl
  · intro text e h
    exact exists_firstLines_of_parse h

/-- A second text adds an equation and replaces `r` anew. A third one is refused at its second line,
which is the seventh of the first text with the third; the six lines above are read. -/
theorem parse_composes_shapes :
    ∃ (first second third : String) (d d' : Definition Float),
      parse first = .ok d ∧ parse second = .ok d' ∧
      parse (first ++ second) = .ok (d.followedBy d') ∧
      (d.followedBy d').equations = ["A = pi*r**2", "V = A*h"] ∧
      (d.followedBy d').names["r"]? = d'.names["r"]? ∧ "r" ∈ d.names ∧ "r" ∈ d'.names ∧
      parse (α := Float) third = .error (.definition 2 (.notIndex "area" "x")) ∧
      parse (α := Float) (first ++ third) = .error (.definition 7 (.notIndex "area" "x")) ∧
      ∃ d'' : Definition Float,
        parse (String.ofList (firstLines 6 (first ++ third).toList)) = .ok d'' := by
  let first := "# shapes\n[equations]\nA = pi*r**2\n[names]\nr: d/2\n"
  let second := "\n[equations] # more\nV = A*h\n[names]\nr: radius"
  let third := "[combos]\narea: 0 x\n"
  have hread : ([first, second].map fun text =>
      (parse text : Except (Error Float) (Definition Float)).toOption.map fun d =>
        (d.equations, d.names["r"]?.isSome)) =
      [some (["A = pi*r**2"], true), some (["V = A*h"], true)] := by decide +kernel
  simp only [List.map_cons, List.map_nil, List.cons.injEq, and_true] at hread
  obtain ⟨⟨d, hd, hfound⟩, d', hd', hfound'⟩ :=
    And.imp Option.map_eq_some_iff.mp Option.map_eq_some_iff.mp hread
  obtain ⟨hequations, hr⟩ := Prod.mk.inj hfound
  obtain ⟨hequations', hr'⟩ := Prod.mk.inj hfound'
  have hthird : parse (α := Float) "[combos]\narea: 0 x\n" =
      .error (.definition 2 (.notIndex "area" "x")) := rfl
  have hcontinued := parse_composes.1 first second d (toOption_eq_some_iff.mp hd)
    (by decide +kernel) (by decide +kernel)
  have hjoined := hcontinued.1 d' (toOption_eq_some_iff.mp hd')
  have hrefused := (parse_composes.1 first third d (toOption_eq_some_iff.mp hd)
    (by decide +kernel) (by decide +kernel)).2 2 (.notIndex "area" "x") hthird
  obtain ⟨n, -, fault, he, habove, -⟩ := parse_composes.2 (first ++ third) _ hrefused
  -- The text in front has five lines, so the failure is in line 7 and `n` is 6.
  have hcount : lineCount first = 5 := by decide +kernel
  rw [hcount] at hrefused he
  obtain rfl : n = 6 := by
    have hline := (Error.definition.inj he).1
    omega
  refine ⟨first, second, third, d, d', toOption_eq_some_iff.mp hd, toOption_eq_some_iff.mp hd',
    hjoined, ?_, ?_, ?_, ?_, hthird, hrefused, habove⟩
  · rw [followedBy, hequations, hequations']
    rfl
  · obtain ⟨e, he⟩ := Option.isSome_iff_exists.mp hr'
    rw [followedBy, Std.ExtTreeMap.getElem?_union, he, Option.some_or]
  · exact Std.ExtTreeMap.isSome_getElem?_iff_mem.mp hr
  · exact Std.ExtTreeMap.isSome_getElem?_iff_mem.mp hr'

end Definition

end ErrorBudget
