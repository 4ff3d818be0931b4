import ErrorBudget.Double
import ErrorBudget.Expr.Reading
import ErrorBudget.Proofs.Parser.Grammar
import ErrorBudget.Proofs.Token.Steps
import Mathlib.Data.List.TakeWhile

/-!
# Reading equations

An equation is read in one of four ways, depending on whether its text is blank and on its equal
signs. What is read is the zero form of the equation (`Expr.IsZeroForm`), and limits can do nothing
but refuse it: a text is accepted exactly if its zero form keeps within them
(`Expr.parseEquation_exact`).
-/

set_option autoImplicit false

namespace ErrorBudget

section Splitting

variable {c : Char} {cs rest : List Char}

/-- Every character of a text without `c` is another one. -/
theorem bne_of_not_mem (h : c ∉ cs) : ∀ d ∈ cs, (!(d == c)) = true := by
  intro d hd
  have hne : d ≠ c := by
    rintro rfl
    exact h hd
  simp [hne]

/-- A text is not split at a character that it does not contain. -/
theorem splitFirst?_of_not_mem (h : c ∉ cs) : splitFirst? (· == c) cs = none := by
  have hall : cs.dropWhile (fun d => !(d == c)) = [] :=
    List.dropWhile_eq_nil_iff.mpr (bne_of_not_mem h)
  rw [splitFirst?, hall]

/-- A text is split at the first `c`. -/
theorem splitFirst?_append (h : c ∉ cs) :
    splitFirst? (· == c) (cs ++ c :: rest) = some (cs, rest) := by
  have hcs := bne_of_not_mem h
  rw [splitFirst?, List.dropWhile_append_of_pos hcs, List.takeWhile_append_of_pos hcs]
  simp

/-- Nothing is left without blanks exactly of a blank text. -/
theorem trimBlanks_eq_nil_iff : trimBlanks cs = [] ↔ ∀ c ∈ cs, isBlank c = true := by
  rw [trimBlanks, List.reverse_eq_nil_iff, List.dropWhile_eq_nil_iff]
  simp only [List.mem_reverse]
  constructor
  · intro h
    have hnone : cs.dropWhile isBlank = [] := by
      by_contra hne
      exact absurd (h _ (List.head_mem hne)) (by simpa using List.head_dropWhile_not isBlank hne)
    rwa [List.dropWhile_eq_nil_iff] at hnone
  · exact fun h c hc => h c ((List.dropWhile_suffix _).subset hc)

end Splitting

namespace Token

variable {α : Type} [Scalar α]

/-- Blanks are neither letters nor digits. -/
theorem not_isAlphanum_of_isBlank {c : Char} (h : isBlank c = true) : c.isAlphanum = false := by
  have hranges : c.isAlphanum = (decide (65 ≤ c.toNat ∧ c.toNat ≤ 90) ||
      decide (97 ≤ c.toNat) && decide (c.toNat ≤ 122) ||
      decide (48 ≤ c.toNat) && decide (c.toNat ≤ 57)) := rfl
  simp only [isBlank, Bool.or_eq_true, Bool.and_eq_true, decide_eq_true_eq] at h
  simp only [hranges, Bool.or_eq_false_iff, Bool.and_eq_false_iff, decide_eq_false_iff_not]
  omega

/-- No token starts with a blank. -/
theorem lexeme_of_isBlank {c : Char} (hc : isBlank c = true) (cs : List Char) :
    lexeme c cs = ((.error (.unexpectedCharacter c) : Except (SyntaxFault α) (Token α)), []) := by
  have halphanum := not_isAlphanum_of_isBlank hc
  rw [Char.isAlphanum, Bool.or_eq_false_iff] at halphanum
  have hne {d : Char} (hd : isBlank d = false) : c ≠ d := by
    rintro rfl
    exact absurd hc (hd ▸ Bool.false_ne_true)
  have hsymbol : (ofSymbol? c : Option (Token α)) = none := by
    unfold ofSymbol?
    split <;> first | rfl | exact absurd rfl (hne (by decide))
  have hstar : c ≠ '*' := hne (by decide)
  have hpoint : c ≠ '.' := hne (by decide)
  have hunderscore : c ≠ '_' := hne (by decide)
  simp [lexeme, isNumberStart, isNameStart, hsymbol, hstar, hpoint, hunderscore, halphanum.1,
    halphanum.2]

/-- A blank text has no tokens. -/
theorem eq_nil_of_lex_blank {start : Nat} {cs : List Char} {ts : List (Placed (Token α))}
    (hcs : ∀ c ∈ cs, isBlank c = true) (h : lex start cs = .ok ts) : ts = [] := by
  induction cs using lex_induction α generalizing start with
  | nil =>
    rw [lex_nil] at h
    exact (Except.ok.inj h).symm
  | separator c cs hc ih =>
    rw [lex_separator hc] at h
    exact ih (List.forall_mem_cons.mp hcs).2 h
  | fault c more rest fault hc hlexeme =>
    rw [lex_fault hc hlexeme] at h
    contradiction
  | token c more rest token hc hlexeme ih =>
    rw [lexeme_of_isBlank (List.forall_mem_cons.mp hcs).1] at hlexeme
    exact absurd (Prod.mk.inj hlexeme).1 (by simp)

end Token

namespace Expr

variable {α : Type}

/-- Whether an expression keeps within limits. -/
def IsWithin (e : Expr α) (l : Limits) : Prop :=
  e.depth ≤ l.depth ∧ e.size ≤ l.size

/-- An expression is accepted exactly within the limits. -/
theorem bounded_eq_ok_iff {e u : Expr α} {l : Limits} {input : String} :
    e.bounded l input = .ok u ↔ e.IsWithin l ∧ e = u := by
  unfold bounded excess? IsWithin
  by_cases hdepth : l.depth < e.depth
  · have hnot : ¬e.depth ≤ l.depth := Nat.not_le.mpr hdepth
    simp [hdepth, hnot]
  · by_cases hsize : l.size < e.size
    · have hnot : ¬e.size ≤ l.size := Nat.not_le.mpr hsize
      simp [hdepth, hsize, hnot]
    · simp [hdepth, hsize, Nat.not_lt.mp hdepth, Nat.not_lt.mp hsize]

/-- What is within limits is within larger ones. -/
theorem IsWithin.mono {e : Expr α} {l l' : Limits} (h : e.IsWithin l) (hdepth : l.depth ≤ l'.depth)
    (hsize : l.size ≤ l'.size) : e.IsWithin l' :=
  ⟨Nat.le_trans h.1 hdepth, Nat.le_trans h.2 hsize⟩

/-- The sides of a difference keep within its limits. -/
theorem IsWithin.sides {u v : Expr α} {l : Limits} (h : (sub u v).IsWithin l) :
    u.IsWithin l ∧ v.IsWithin l := by
  simp only [IsWithin, depth, size] at h ⊢
  omega

variable [Scalar α] {l : Limits} {t : String} {cs left right : List Char} {start : Nat}
  {e u v : Expr α}

section Reading

/-- What is read does not depend on where the text starts. -/
theorem read_eq_ok_iff_read_zero (start : Nat) : read start cs = .ok e ↔ read 0 cs = .ok e := by
  have hlex := Token.lex_shift (α := α) start 0 cs
  rw [Nat.zero_add] at hlex
  unfold read
  rw [hlex]
  cases (Token.lex 0 cs : Except (Placed (SyntaxFault α)) _) with
  | error failure => simp [Except.mapError, Except.map]
  | ok ts =>
    simp only [Except.mapError, Except.map]
    constructor
    · intro h
      have hback := (Parser.derives_of_parseAll h).moved fun s => ⟨s.start - start, s.stop - start⟩
      have hsame : (ts.map (Placed.shift start)).map (fun t =>
          (⟨t.item, ⟨t.span.start - start, t.span.stop - start⟩⟩ : Placed (Token α))) = ts := by
        rw [List.map_map, List.map_id'']
        intro t
        simp [Placed.shift, Span.shift]
      rw [hsame] at hback
      exact hback.parseAll_eq_ok _
    · intro h
      exact ((Parser.derives_of_parseAll h).moved (Span.shift start)).parseAll_eq_ok _

/-- No expression is blank. -/
theorem read_ne_ok_of_blank (h : ∀ c ∈ cs, isBlank c = true) : read start cs ≠ .ok e := by
  unfold read
  split
  · simp
  · rename_i ts hts
    obtain rfl := Token.eq_nil_of_lex_blank h hts
    simp [Parser.parseAll]

/-- The limits refuse a piece of a text, or it is read like a text of its own. -/
theorem parseSide_eq_ok_iff :
    parseSide l t start cs = .ok e ↔ read 0 cs = .ok e ∧ e.IsWithin l := by
  rw [← read_eq_ok_iff_read_zero start]
  unfold parseSide
  split
  · rename_i failure hfailure
    simp [hfailure]
  · rename_i u hu
    rw [hu, bounded_eq_ok_iff, Except.ok.injEq, and_comm]
    constructor
    · rintro ⟨rfl, h⟩
      exact ⟨rfl, h⟩
    · rintro ⟨rfl, h⟩
      exact ⟨rfl, h⟩

end Reading

section Ways

/-- A blank text is refused as an empty equation. -/
theorem parseEquation_of_blank (h : ∀ c ∈ t.toList, isBlank c = true) :
    (parseEquation l t : Except (Error α) (Expr α)) =
      .error (.parse ⟨t, .emptyEquation, none⟩) := by
  rw [parseEquation, if_pos (trimBlanks_eq_nil_iff.mpr h)]

/-- A text without an equal sign is read as one side. -/
theorem parseEquation_of_not_mem (hblank : ¬∀ c ∈ t.toList, isBlank c = true)
    (h : '=' ∉ t.toList) :
    (parseEquation l t : Except (Error α) (Expr α)) =
      (parseSide l t 0 t.toList).mapError .parse := by
  rw [parseEquation, if_neg (fun hnil => hblank (trimBlanks_eq_nil_iff.mp hnil)),
    splitFirst?_of_not_mem h]

/-- A text with an equal sign is not blank. -/
theorem not_blank_of_append (h : t.toList = left ++ '=' :: right) :
    ¬∀ c ∈ t.toList, isBlank c = true := by
  intro hblank
  exact absurd (hblank '=' (by simp [h])) (by decide)

/-- A text with one equal sign is read as the difference of its sides. -/
theorem parseEquation_of_append (h : t.toList = left ++ '=' :: right) (hleft : '=' ∉ left)
    (hright : '=' ∉ right) :
    (parseEquation l t : Except (Error α) (Expr α)) = Except.mapError .parse (do
      let u ← parseSide l t 0 left
      let v ← parseSide l t (byteLength left + 1) right
      bounded l t (.sub u v)) := by
  have hnil := fun hnil => not_blank_of_append h (trimBlanks_eq_nil_iff.mp hnil)
  rw [parseEquation, if_neg hnil, h, splitFirst?_append hleft]
  simp [hright]

/-- A text with more than one equal sign is malformed. -/
theorem parseEquation_of_two_le (h : 2 ≤ t.toList.count '=') :
    (parseEquation l t : Except (Error α) (Expr α)) =
      .error (.malformed t (t.toList.count '=')) := by
  have hmem : '=' ∈ t.toList := List.count_pos_iff.mp (by omega)
  obtain ⟨left, right, htext, hleft⟩ := List.eq_append_cons_of_mem hmem
  have hright : '=' ∈ right := by
    rw [htext, List.count_append, List.count_cons_self, List.count_eq_zero.mpr hleft] at h
    exact List.count_pos_iff.mp (by omega)
  have hnil := fun hnil => not_blank_of_append htext (trimBlanks_eq_nil_iff.mp hnil)
  rw [parseEquation, if_neg hnil]
  simp only [htext, splitFirst?_append hleft]
  simp [hright]

end Ways

/-- What an equation says has to be zero: the expression that the text is, or the difference of the
expressions on the two sides of its equal sign. -/
inductive IsZeroForm : List Char → Expr α → Prop
  | expression {cs : List Char} {e : Expr α} (h : '=' ∉ cs) (he : read 0 cs = .ok e) :
      IsZeroForm cs e
  | difference {left right : List Char} {u v : Expr α} (hleft : '=' ∉ left) (hright : '=' ∉ right)
      (hu : read 0 left = .ok u) (hv : read 0 right = .ok v) :
      IsZeroForm (left ++ '=' :: right) (sub u v)

/-- A text has no equal sign, one, or more. -/
theorem equalSign_cases (cs : List Char) : '=' ∉ cs ∨
    (∃ left right, cs = left ++ '=' :: right ∧ '=' ∉ left ∧ '=' ∉ right) ∨ 2 ≤ cs.count '=' := by
  by_cases hmem : '=' ∈ cs
  · obtain ⟨left, right, rfl, hleft⟩ := List.eq_append_cons_of_mem hmem
    by_cases hright : '=' ∈ right
    · have hcount := List.count_pos_iff.mpr hright
      refine .inr (.inr ?_)
      rw [List.count_append, List.count_cons_self]
      omega
    · exact .inr (.inl ⟨left, right, rfl, hleft, hright⟩)
  · exact .inl hmem

/-- Limits refuse the sides of an equation only if they refuse the equation. -/
theorem parseEquation_eq_ok_iff :
    parseEquation l t = .ok e ↔ IsZeroForm t.toList e ∧ e.IsWithin l := by
  constructor
  · intro h
    by_cases hblank : ∀ c ∈ t.toList, isBlank c = true
    · rw [parseEquation_of_blank hblank] at h
      contradiction
    rcases equalSign_cases t.toList with hmem | ⟨left, right, htext, hleft, hright⟩ | htwo
    · rw [parseEquation_of_not_mem hblank hmem, mapError_eq_ok_iff, parseSide_eq_ok_iff] at h
      exact ⟨.expression hmem h.1, h.2⟩
    · rw [parseEquation_of_append htext hleft hright, mapError_eq_ok_iff, bind_eq_ok_iff] at h
      obtain ⟨u, hu, hsecond⟩ := h
      obtain ⟨v, hv, hwhole⟩ := bind_eq_ok_iff.mp hsecond
      obtain ⟨hwithin, rfl⟩ := bounded_eq_ok_iff.mp hwhole
      rw [parseSide_eq_ok_iff] at hu hv
      exact ⟨htext ▸ .difference hleft hright hu.1 hv.1, hwithin⟩
    · rw [parseEquation_of_two_le htwo] at h
      contradiction
  · rintro ⟨hform, hwithin⟩
    generalize hcs : t.toList = cs at hform
    cases hform with
    | expression hmem he =>
      subst hcs
      have hblank : ¬∀ c ∈ t.toList, isBlank c = true := fun hblank => read_ne_ok_of_blank hblank he
      rw [parseEquation_of_not_mem hblank hmem, mapError_eq_ok_iff, parseSide_eq_ok_iff]
      exact ⟨he, hwithin⟩
    | difference hleft hright hu hv =>
      rw [parseEquation_of_append hcs hleft hright, mapError_eq_ok_iff]
      refine bind_eq_ok_iff.mpr ⟨_, parseSide_eq_ok_iff.mpr ⟨hu, hwithin.sides.1⟩, ?_⟩
      refine bind_eq_ok_iff.mpr ⟨_, parseSide_eq_ok_iff.mpr ⟨hv, hwithin.sides.2⟩, ?_⟩
      exact bounded_eq_ok_iff.mpr ⟨hwithin, rfl⟩

/-- An expression that is read is within the default limits. -/
theorem isWithin_of_parse (h : parse t = .ok e) : e.IsWithin {} :=
  (parseSide_eq_ok_iff.mp h).2

/-- An equation that is read is within its limits. -/
theorem isWithin_of_parseEquation (h : parseEquation l t = .ok e) : e.IsWithin l :=
  (parseEquation_eq_ok_iff.mp h).2

/-- A text is malformed exactly if it has more than one equal sign. -/
theorem parseEquation_eq_malformed_iff {input : String} {n : Nat} :
    (parseEquation l t : Except (Error α) (Expr α)) = .error (.malformed input n) ↔
      input = t ∧ n = t.toList.count '=' ∧ 2 ≤ n := by
  have hother {step : Except (ParseError α) (Expr α)} :
      step.mapError Error.parse ≠ .error (.malformed input n) := by
    intro h
    obtain ⟨_, -, h⟩ := mapError_eq_error_iff.mp h
    contradiction
  constructor
  · intro h
    by_cases hblank : ∀ c ∈ t.toList, isBlank c = true
    · rw [parseEquation_of_blank hblank] at h
      exact absurd (Except.error.inj h) (by simp)
    rcases equalSign_cases t.toList with hmem | ⟨left, right, htext, hleft, hright⟩ | htwo
    · rw [parseEquation_of_not_mem hblank hmem] at h
      exact absurd h hother
    · rw [parseEquation_of_append htext hleft hright] at h
      exact absurd h hother
    · rw [parseEquation_of_two_le htwo] at h
      obtain ⟨rfl, rfl⟩ := Error.malformed.inj (Except.error.inj h)
      exact ⟨rfl, rfl, htwo⟩
  · rintro ⟨rfl, rfl, htwo⟩
    exact parseEquation_of_two_le htwo

/-- An equation is read exactly as its zero form, if that keeps within the limits, and it is
malformed exactly if it has more than one equal sign. So larger limits change nothing about a text
that is accepted, and no side of an equation is refused if its difference is within the limits. -/
theorem parseEquation_exact (t : String) (l : Limits) :
    (∀ e : Expr α, parseEquation l t = .ok e ↔ IsZeroForm t.toList e ∧ e.IsWithin l) ∧
    (∀ input n, (parseEquation l t : Except (Error α) (Expr α)) = .error (.malformed input n) ↔
      input = t ∧ n = t.toList.count '=' ∧ 2 ≤ n) ∧
    (∀ (l' : Limits) (e : Expr α), l.depth ≤ l'.depth → l.size ≤ l'.size →
      parseEquation l t = .ok e → parseEquation l' t = .ok e) ∧
    ∀ (left right : List Char) (u v : Expr α), t.toList = left ++ '=' :: right →
      read 0 left = .ok u → read 0 right = .ok v → (sub u v).IsWithin l →
        parseSide l t 0 left = .ok u ∧ parseSide l t (byteLength left + 1) right = .ok v := by
  refine ⟨fun _ => parseEquation_eq_ok_iff, fun _ _ => parseEquation_eq_malformed_iff, ?_, ?_⟩
  · intro l' e hdepth hsize h
    obtain ⟨hform, hwithin⟩ := parseEquation_eq_ok_iff.mp h
    exact parseEquation_eq_ok_iff.mpr ⟨hform, hwithin.mono hdepth hsize⟩
  · intro left right u v _ hu hv hwithin
    exact ⟨parseSide_eq_ok_iff.mpr ⟨hu, hwithin.sides.1⟩,
      parseSide_eq_ok_iff.mpr ⟨hv, hwithin.sides.2⟩⟩

/-- The difference of the sides has three levels and five nodes. -/
theorem parseEquation_exact_difference :
    (∃ e : Expr Float, IsZeroForm "y = 2*x".toList e ∧ e.IsWithin ⟨3, 5⟩ ∧
      parseEquation ⟨3, 5⟩ "y = 2*x" = .ok e ∧ parseEquation ⟨4, 5⟩ "y = 2*x" = .ok e) ∧
    (parseEquation ⟨3, 5⟩ "x = y = z" : Except (Error Float) (Expr Float)) =
      .error (.malformed "x = y = z" 2) := by
  obtain ⟨hok, -, hraised, -⟩ := parseEquation_exact (α := Float) "y = 2*x" ⟨3, 5⟩
  obtain ⟨-, hmalformed, -, -⟩ := parseEquation_exact (α := Float) "x = y = z" ⟨3, 5⟩
  have hread : (parseEquation ⟨3, 5⟩ "y = 2*x" :
      Except (Error Float) (Expr Float)).isOk = true := by
    decide +kernel
  obtain ⟨e, he⟩ := exists_eq_ok_of_isOk hread
  obtain ⟨hform, hwithin⟩ := (hok e).mp he
  exact ⟨⟨e, hform, hwithin, he, hraised ⟨4, 5⟩ e (by decide) (by decide) he⟩,
    (hmalformed _ 2).mpr ⟨rfl, by decide, by decide⟩⟩

end Expr

end ErrorBudget
