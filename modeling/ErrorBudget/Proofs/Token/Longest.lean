import ErrorBudget.Proofs.Token.Places

/-!
# Longest lexemes

At its front a text is scanned for the longest piece that is spelled like a token: no piece goes
further, whatever token it spells (`Token.isLongest_of_lexeme`). A literal in particular is the
longest one, with a fraction and an exponent only if they are complete (`Literal.scan_extends`).
-/

set_option autoImplicit false

namespace ErrorBudget

namespace Literal

variable {l l' : Literal} {cs : List Char}

/-- The characters of a literal are its digits, its fraction and its exponent. -/
theorem chars_eq (l : Literal) :
    l.chars = l.whole ++ (fractionChars l.fraction ++ l.exponent.elim [] Exponent.chars) := by
  cases h : l.exponent <;> simp [chars, h]

/-- A literal takes all digits that it begins with. -/
theorem scan_whole (cs : List Char) : (scan cs).1.whole = cs.takeWhile Char.isDigit := by
  unfold scan
  dsimp only
  split <;> rfl

/-- The fraction of a literal stands behind its first digits. -/
theorem scan_fraction (cs : List Char) :
    (scan cs).1.fraction = (scanFraction (cs.dropWhile Char.isDigit)).1 := by
  unfold scan
  dsimp only
  split <;> rfl

/-- Digits behind the mark of an exponent are all taken. -/
theorem scanDigits_digits {mark : Char} {sign : Option Char} {digits : List Char}
    (hne : digits ≠ []) (hdigits : digits.all Char.isDigit = true) (cs : List Char) :
    scanDigits mark sign (digits ++ cs) =
      some (⟨mark, sign, digits ++ cs.takeWhile Char.isDigit⟩, cs.dropWhile Char.isDigit) := by
  obtain ⟨d, ds, rfl⟩ := List.exists_cons_of_ne_nil hne
  have hall := List.all_eq_true.mp hdigits
  unfold scanDigits
  rw [List.takeWhile_append_of_pos hall, List.dropWhile_append_of_pos hall]
  rfl

/-- A digit is no sign. -/
theorem not_isSign_of_isDigit {c : Char} (h : c.isDigit = true) : isSign c = false := by
  simp only [isSign, Bool.or_eq_false_iff, decide_eq_false_iff_not]
  constructor <;>
  · rintro rfl
    exact absurd h (by decide)

/-- The mark of an exponent is neither a digit nor a point. -/
theorem not_isDigit_of_isMark {c : Char} (h : isMark c = true) : c.isDigit = false ∧ c ≠ '.' := by
  simp only [isMark, Bool.or_eq_true, decide_eq_true_eq] at h
  rcases h with rfl | rfl <;> decide

/-- A complete exponent is taken, with all digits that follow it. -/
theorem scanExponent_chars (hl : l.IsProper) {e : Exponent} (he : l.exponent = some e)
    (cs : List Char) : scanExponent (e.chars ++ cs) =
      some (⟨e.mark, e.sign, e.digits ++ cs.takeWhile Char.isDigit⟩,
        cs.dropWhile Char.isDigit) := by
  obtain ⟨hmark, hsign, hne, hdigits⟩ := hl.exponent e he
  obtain ⟨mark, sign, digits⟩ := e
  cases sign with
  | some s =>
    have hs : isSign s = true := hsign s rfl
    simp [Exponent.chars, scanExponent, hmark, hs, scanDigits_digits hne hdigits]
  | none =>
    have hscan : scanDigits mark none (digits ++ cs) = _ := scanDigits_digits hne hdigits cs
    obtain ⟨d, ds, rfl⟩ := List.exists_cons_of_ne_nil hne
    have hd : isSign d = false :=
      not_isSign_of_isDigit (List.all_eq_true.mp hdigits d List.mem_cons_self)
    simpa [Exponent.chars, scanExponent, hmark, hd] using hscan

/-- A literal with an exponent is taken, with all digits that follow it. -/
theorem scan_of_exponent (hl : l.IsProper) {e : Exponent} (he : l.exponent = some e)
    (cs : List Char) : scan (l.chars ++ cs) =
      (⟨l.whole, l.fraction, some ⟨e.mark, e.sign, e.digits ++ cs.takeWhile Char.isDigit⟩⟩,
        cs.dropWhile Char.isDigit) := by
  obtain ⟨hdigit, hpoint⟩ := not_isDigit_of_isMark (hl.exponent e he).1
  have hstop : ∀ c ∈ (e.chars ++ cs).head?, c.isDigit = false := by
    simp [Exponent.chars, hdigit]
  have hfraction : scanFraction (fractionChars l.fraction ++ (e.chars ++ cs)) =
      (l.fraction, e.chars ++ cs) := by
    have hall := hl.fraction
    cases hf : l.fraction with
    | none => simp [fractionChars, Exponent.chars, scanFraction, hpoint]
    | some digits =>
      rw [hf, Option.getD_some] at hall
      simp only [fractionChars, List.cons_append, scanFraction]
      rw [takeWhile_append hall hstop, dropWhile_append hall hstop]
  have hbehind : ∀ c ∈ (fractionChars l.fraction ++ (e.chars ++ cs)).head?, c.isDigit = false := by
    cases l.fraction with
    | none => exact hstop
    | some digits => simp [fractionChars]
  rw [chars_eq, he, Option.elim_some, List.append_assoc, List.append_assoc, scan,
    takeWhile_append hl.whole hbehind, dropWhile_append hl.whole hbehind]
  simp only [hfraction, scanExponent_chars hl he]

/-- A literal alone is scanned as a whole. -/
theorem scan_chars_self (hl : l.IsProper) : scan l.chars = (l, []) := by
  cases he : l.exponent with
  | none => simpa using scan_chars ⟨hl.whole, hl.fraction, he⟩ apart_nil
  | some e =>
    have hscan := scan_of_exponent hl he []
    simp only [List.append_nil, List.takeWhile_nil, List.dropWhile_nil] at hscan
    rw [hscan, ← he]

/-- A literal is determined by its characters. -/
theorem eq_of_chars_eq (hl : l.IsProper) (hl' : l'.IsProper) (h : l.chars = l'.chars) : l = l' := by
  have hscan := scan_chars_self hl
  rw [h, scan_chars_self hl'] at hscan
  exact (Prod.mk.inj hscan).1.symm

/-- A scan goes at least as far as any literal at the front of the text, and so does the part of it
in front of the exponent. -/
theorem scan_extends (hl : l.IsProper) (cs : List Char) :
    l.chars.length ≤ (scan (l.chars ++ cs)).1.chars.length ∧
      l.mantissa.length ≤ (scan (l.chars ++ cs)).1.mantissa.length := by
  cases he : l.exponent with
  | some e =>
    rw [scan_of_exponent hl he]
    constructor
    · simp only [chars_eq, he, Option.elim_some, Exponent.chars, List.length_append,
        List.length_cons]
      omega
    · exact Nat.le_refl _
  | none =>
    have hwhole := scan_whole (l.chars ++ cs)
    have hfraction := scan_fraction (l.chars ++ cs)
    rw [chars_eq l, he, Option.elim_none, List.append_nil, List.append_assoc] at hwhole hfraction ⊢
    generalize scan (l.whole ++ (fractionChars l.fraction ++ cs)) = found at *
    cases hf : l.fraction with
    | none =>
      rw [hf, fractionChars, List.nil_append,
        List.takeWhile_append_of_pos (List.all_eq_true.mp hl.whole)] at hwhole
      simp only [chars_eq, mantissa, hwhole, hf, fractionChars, Option.getD_none, List.append_nil,
        List.length_append]
      omega
    | some digits =>
      have hdigits : digits.all Char.isDigit = true := by simpa [hf] using hl.fraction
      have hpoint : ∀ c ∈ (fractionChars (some digits) ++ cs).head?, c.isDigit = false := by
        simp [fractionChars]
      rw [hf, takeWhile_append hl.whole hpoint] at hwhole
      rw [hf, dropWhile_append hl.whole hpoint, fractionChars, List.cons_append, scanFraction,
        List.takeWhile_append_of_pos (List.all_eq_true.mp hdigits)] at hfraction
      simp only [chars_eq, mantissa, hwhole, hfraction, hf, fractionChars, Option.getD_some,
        List.length_append, List.length_cons]
      omega

/-- A scan finds the literal that no other at the front of the text is longer than. -/
theorem scan_eq_of_longest (hl : l.IsProper)
    (hlongest : ∀ l' : Literal, l'.IsProper → l'.chars <+: l.chars ++ cs →
      l'.chars.length ≤ l.chars.length) : (scan (l.chars ++ cs)).1 = l := by
  have hfound : (scan (l.chars ++ cs)).1.chars <+: l.chars ++ cs :=
    ⟨_, scan_append (l.chars ++ cs)⟩
  have hproper := scan_isProper (l.chars ++ cs)
  have hshorter := hlongest _ hproper hfound
  have hlonger := (scan_extends hl cs).1
  have hchars := (List.prefix_of_prefix_length_le hfound ⟨cs, rfl⟩ hshorter).eq_of_length
    (Nat.le_antisymm hshorter hlonger)
  exact eq_of_chars_eq hproper hl hchars

/-- A literal with a digit in front of its exponent starts like a number. -/
theorem exists_chars_of_mantissa (hl : l.IsProper) (h : l.mantissa ≠ []) :
    ∃ c more, l.chars = c :: more ∧ Token.isNumberStart c = true := by
  rw [chars_eq]
  cases hwhole : l.whole with
  | cons c digits =>
    have hdigits := hl.whole
    rw [hwhole] at hdigits
    have hc : c.isDigit = true := (Bool.and_eq_true_iff.mp hdigits).1
    exact ⟨c, _, rfl, by simp [Token.isNumberStart, hc]⟩
  | nil =>
    cases hfraction : l.fraction with
    | some digits => exact ⟨'.', _, rfl, rfl⟩
    | none => simp [mantissa, hwhole, hfraction] at h

/-- A literal has no value exactly if it has no digits in front of its exponent. -/
theorem value?_eq_none_iff : l.value? = none ↔ l.mantissa = [] := by
  simp [value?]

end Literal

namespace Token

variable {α : Type} [Scalar α] {c : Char} {cs more piece rest : List Char} {token token' : Token α}

section Laws

/-- Two stars are taken in preference to one. -/
theorem lexeme_star (cs : List Char) :
    (lexeme '*' cs : Except (SyntaxFault α) (Token α) × List Char) =
      if cs.head? = some '*' then (.ok (.operator .pow), ['*'])
      else (.ok (.operator .mul), []) := by
  cases cs with
  | nil => rfl
  | cons d cs =>
    by_cases hd : d = '*'
    · subst hd
      rfl
    · simp [lexeme, ofSymbol?, hd]

/-- A literal with digits in front of its exponent gives a token. -/
theorem ofLiteral_eq_ok {l : Literal} (h : l.mantissa ≠ []) :
    ∃ token : Token α, ofLiteral l = .ok token := by
  cases hvalue : l.value? with
  | none => exact absurd (Literal.value?_eq_none_iff.mp hvalue) h
  | some v => exact ⟨.number (Scalar.ofDecimal v.1 v.2), by simp [ofLiteral, hvalue]⟩

end Laws

section Spellings

/-- Whether a text alone is a lexeme with a token, and any text that starts with it has a lexeme
that goes at least as far. -/
def IsLexeme (piece : List Char) (token : Token α) : Prop :=
  ∃ c more, piece = c :: more ∧ isSeparator c = false ∧ lexeme c more = (.ok token, more) ∧
    ∀ cs, ∃ (token' : Token α) (more' : List Char),
      lexeme c (more ++ cs) = (.ok token', more') ∧ more.length ≤ more'.length

/-- A character that stands alone is a lexeme. -/
theorem isLexeme_symbol (hc : isSeparator c = false) (h : ofSymbol? c = some token) :
    IsLexeme [c] token :=
  ⟨c, [], rfl, hc, lexeme_of_ofSymbol? h [],
    fun cs => ⟨token, [], lexeme_of_ofSymbol? h cs, Nat.le_refl 0⟩⟩

/-- One star is a lexeme, although two stars are a longer one. -/
theorem isLexeme_star : IsLexeme (α := α) ['*'] (.operator .mul) := by
  refine ⟨'*', [], rfl, by decide, rfl, fun cs => ?_⟩
  by_cases hstar : cs.head? = some '*'
  · exact ⟨_, ['*'], by rw [List.nil_append, lexeme_star, if_pos hstar], Nat.zero_le 1⟩
  · exact ⟨_, [], by rw [List.nil_append, lexeme_star, if_neg hstar], Nat.le_refl 0⟩

/-- An identifier is a lexeme. -/
theorem isLexeme_identifier {name : String} (hname : IsIdentifier name) :
    IsLexeme (α := α) name.toList (.identifier name) := by
  obtain ⟨c, more, hchars, hc, hmore⟩ := hname
  have hall := List.all_eq_true.mp hmore
  refine ⟨c, more, hchars, (word_start (α := α) (.inl hc)).1, ?_,
    fun cs => ⟨_, _, lexeme_of_isNameStart hc (more ++ cs), ?_⟩⟩
  · rw [lexeme_of_isNameStart hc, List.takeWhile_eq_self_iff.mpr hall, ← hchars,
      String.ofList_toList]
  · rw [List.takeWhile_append_of_pos hall, List.length_append]
    exact Nat.le_add_right _ _

/-- A literal with a value is a lexeme. -/
theorem isLexeme_literal {l : Literal} (hl : l.IsProper) {m : Nat} {e : Int}
    (hvalue : l.value? = some (m, e)) :
    IsLexeme (α := α) l.chars (.number (Scalar.ofDecimal m e)) := by
  have hmantissa : l.mantissa ≠ [] := by
    intro hempty
    rw [Literal.value?_eq_none_iff.mpr hempty] at hvalue
    contradiction
  obtain ⟨c, more, hchars, hc⟩ := Literal.exists_chars_of_mantissa hl hmantissa
  refine ⟨c, more, hchars, (word_start (α := α) (.inr hc)).1, ?_, fun cs => ?_⟩
  · have hself := Literal.scan_chars_self hl
    rw [hchars] at hself
    simp [lexeme_of_isNumberStart hc, hself, hchars, ofLiteral, hvalue]
  · -- What is found may be a longer literal, which has a digit in front of its exponent too.
    obtain ⟨hlength, hdigits⟩ := Literal.scan_extends hl cs
    rw [hchars, List.cons_append] at hlength hdigits
    have hfound : (Literal.scan (c :: (more ++ cs))).1.mantissa ≠ [] :=
      List.ne_nil_of_length_pos ((List.length_pos_of_ne_nil hmantissa).trans_le hdigits)
    obtain ⟨token', htoken⟩ := ofLiteral_eq_ok (α := α) hfound
    refine ⟨token', _, by rw [lexeme_of_isNumberStart hc, htoken], ?_⟩
    rw [List.length_cons] at hlength
    rw [List.length_tail]
    exact Nat.le_sub_one_of_lt hlength

/-- What is spelled like a token is a lexeme. -/
theorem IsSpelled.isLexeme (h : IsSpelled piece (.ok token)) : IsLexeme piece token := by
  cases h with
  | number hl hvalue => exact isLexeme_literal hl hvalue
  | identifier hname => exact isLexeme_identifier hname
  | operator op =>
    cases op with
    | add | sub | div => exact isLexeme_symbol (by decide) rfl
    | mul => exact isLexeme_star
    | pow => exact ⟨'*', ['*'], rfl, by decide, rfl, fun cs => ⟨_, _, rfl, Nat.le_refl 1⟩⟩
  | caret | leftParen | rightParen | comma => exact isLexeme_symbol (by decide) rfl

/-- A spelling spells one token only. -/
theorem IsSpelled.unique (h : IsSpelled piece (.ok token)) (h' : IsSpelled piece (.ok token')) :
    token = token' := by
  obtain ⟨c, more, rfl, -, hlexeme, -⟩ := h.isLexeme
  obtain ⟨c', more', hpiece, -, hlexeme', -⟩ := h'.isLexeme
  obtain ⟨rfl, rfl⟩ := List.cons.inj hpiece
  rw [hlexeme] at hlexeme'
  exact Except.ok.inj (Prod.mk.inj hlexeme').1

/-- Alone, a spelling gives its token. -/
theorem lex_eq_of_isSpelled (h : IsSpelled piece (.ok token)) (start : Nat) :
    lex start piece = .ok [⟨token, ⟨start, start + byteLength piece⟩⟩] := by
  obtain ⟨c, more, rfl, hc, hlexeme, -⟩ := h.isLexeme
  have hlex : lex start (c :: (more ++ [])) = _ := lex_token hc (by rwa [List.append_nil])
  rwa [List.append_nil, lex_nil] at hlex

end Spellings

/-- A piece at the front of a text that spells a token, and that no other such piece is longer
than. -/
structure IsLongest (piece : List Char) (token : Token α) (text : List Char) : Prop where
  isSpelled : IsSpelled piece (.ok token)
  isPrefix : piece <+: text
  longest : ∀ piece' (token' : Token α), IsSpelled piece' (.ok token') → piece' <+: text →
    piece'.length ≤ piece.length

/-- A text has only one longest lexeme. -/
theorem IsLongest.unique {text piece' : List Char} (h : IsLongest piece token text)
    (h' : IsLongest piece' token' text) : piece = piece' ∧ token = token' := by
  have hlength : piece.length = piece'.length :=
    Nat.le_antisymm (h'.longest piece token h.isSpelled h.isPrefix)
      (h.longest piece' token' h'.isSpelled h'.isPrefix)
  obtain rfl : piece = piece' :=
    (List.prefix_of_prefix_length_le h.isPrefix h'.isPrefix hlength.le).eq_of_length hlength
  exact ⟨rfl, h.isSpelled.unique h'.isSpelled⟩

/-- What is taken off the front of a text is the longest spelling of a token there. -/
theorem isLongest_of_lexeme (h : lexeme c (more ++ rest) = (.ok token, more)) :
    IsLongest (c :: more) token (c :: (more ++ rest)) := by
  refine ⟨isSpelled_of_lexeme h, ⟨rest, rfl⟩, ?_⟩
  rintro piece' token' hspelled ⟨rest', htext⟩
  obtain ⟨d, more', rfl, -, -, hlonger⟩ := hspelled.isLexeme
  obtain ⟨found, taken, hlexeme, hlength⟩ := hlonger rest'
  rw [List.cons_append] at htext
  obtain ⟨rfl, hrest⟩ := List.cons.inj htext
  rw [hrest, h] at hlexeme
  obtain ⟨-, rfl⟩ := Prod.mk.inj hlexeme
  exact Nat.succ_le_succ hlength

/-- The longest spelling of a token at the front of a text is what is taken off it. -/
theorem lexeme_of_isLongest (h : IsLongest piece token (piece ++ rest)) :
    ∃ c more, piece = c :: more ∧ isSeparator c = false ∧
      lexeme c (more ++ rest) = (.ok token, more) := by
  obtain ⟨c, more, rfl, hc, -, hlonger⟩ := h.isSpelled.isLexeme
  obtain ⟨found, taken, hlexeme, -⟩ := hlonger rest
  obtain ⟨after, hafter⟩ := isPrefix_of_lexeme hlexeme
  have hfound : IsLongest (c :: taken) found (c :: (taken ++ after)) :=
    isLongest_of_lexeme (by rwa [hafter])
  rw [hafter] at hfound
  obtain ⟨hpiece, rfl⟩ := h.unique hfound
  obtain ⟨-, rfl⟩ := List.cons.inj hpiece
  exact ⟨c, more, rfl, hc, hlexeme⟩

end Token

end ErrorBudget
