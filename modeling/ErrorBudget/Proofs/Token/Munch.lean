import ErrorBudget.Proofs.Token.Longest

/-!
# Longest pieces first

A text is cut from its front into blanks and longest spellings of tokens (`Token.Cuts`). Where this
goes through to the end it gives the tokens of the text, which lie apart from each other with only
blanks around them (`Token.IsMunched`). It fails just where the cutting reaches a character that
starts no token or a number without a digit in front of its exponent (`Token.IsBlocked`). Both are
`Token.lex_munches`.
-/

set_option autoImplicit false

namespace ErrorBudget

/-- Whether a span has the byte at a position. -/
def Span.Covers (s : Span) (k : Nat) : Prop :=
  s.start ≤ k ∧ k < s.stop

namespace Token

variable {α : Type} [Scalar α] {start stop : Nat} {c : Char} {cs piece more rest : List Char}
  {token : Token α} {ts : List (Placed (Token α))}

section Cutting

/-- From the byte `start` on, a text is cut into tokens and blanks up to the byte `stop`, where the
rest of the text is still to be cut. -/
inductive Cuts : Nat → List Char → List (Placed (Token α)) → Nat → List Char → Prop
  | done (start : Nat) (text : List Char) : Cuts start text [] start text
  | blank {start stop : Nat} {c : Char} {text rest : List Char} {ts : List (Placed (Token α))}
      (hc : c ∈ [' ', '\t', '\r', '\n']) (h : Cuts (start + c.utf8Size) text ts stop rest) :
      Cuts start (c :: text) ts stop rest
  | token {start stop : Nat} {piece text rest : List Char} {token : Token α}
      {ts : List (Placed (Token α))} (hpiece : IsLongest piece token (piece ++ text))
      (h : Cuts (start + byteLength piece) text ts stop rest) :
      Cuts start (piece ++ text) (⟨token, ⟨start, start + byteLength piece⟩⟩ :: ts) stop rest

/-- What is cut off gives its tokens, in front of those of the rest. -/
theorem Cuts.lex_eq (h : Cuts start cs ts stop rest) :
    lex start cs = (lex stop rest).map (ts ++ ·) := by
  induction h with
  | done start text =>
    cases (lex start text : Except (Placed (SyntaxFault α)) (List (Placed (Token α)))) <;> rfl
  | blank hc _ ih => rw [lex_separator (isSeparator_iff.mpr hc), ih]
  | @token start stop piece text rest token ts hpiece _ ih =>
    obtain ⟨c, more, rfl, hc, hlexeme⟩ := lexeme_of_isLongest hpiece
    rw [List.cons_append, lex_token hc hlexeme, ih]
    cases (lex stop rest : Except (Placed (SyntaxFault α)) (List (Placed (Token α)))) <;> rfl

/-- A text with tokens is cut into them up to its end. -/
theorem cuts_of_lex (h : lex start cs = .ok ts) : ∃ stop, Cuts start cs ts stop [] := by
  induction cs using lex_induction α generalizing start ts with
  | nil =>
    rw [lex_nil] at h
    obtain rfl := Except.ok.inj h
    exact ⟨start, .done start []⟩
  | separator c cs hc ih =>
    rw [lex_separator hc] at h
    obtain ⟨stop, hcuts⟩ := ih h
    exact ⟨stop, .blank (isSeparator_iff.mp hc) hcuts⟩
  | fault c more rest fault hc hlexeme =>
    rw [lex_fault hc hlexeme] at h
    contradiction
  | token c more rest token hc hlexeme ih =>
    rw [lex_token hc hlexeme, map_eq_ok_iff] at h
    obtain ⟨ts', hrest, rfl⟩ := h
    obtain ⟨stop, hcuts⟩ := ih hrest
    exact ⟨stop, .token (isLongest_of_lexeme hlexeme) hcuts⟩

/-- A text that fails is cut up to a lexeme that is no token. -/
theorem exists_cuts_of_lex_eq_error {e : Placed (SyntaxFault α)} (h : lex start cs = .error e) :
    ∃ (ts : List (Placed (Token α))) (stop : Nat) (c : Char) (more rest : List Char)
      (fault : SyntaxFault α), Cuts start cs ts stop (c :: (more ++ rest)) ∧
        isSeparator c = false ∧ lexeme c (more ++ rest) = (.error fault, more) := by
  induction cs using lex_induction α generalizing start with
  | nil =>
    rw [lex_nil] at h
    contradiction
  | separator c cs hc ih =>
    rw [lex_separator hc] at h
    obtain ⟨ts, stop, d, more, rest, fault, hcuts, hfault⟩ := ih h
    exact ⟨ts, stop, d, more, rest, fault, .blank (isSeparator_iff.mp hc) hcuts, hfault⟩
  | fault c more rest fault hc hlexeme =>
    exact ⟨[], start, c, more, rest, fault, .done start _, hc, hlexeme⟩
  | token c more rest token hc hlexeme ih =>
    rw [lex_token hc hlexeme, map_eq_error_iff] at h
    obtain ⟨ts, stop, d, more', rest', fault, hcuts, hfault⟩ := ih h
    exact ⟨_, stop, d, more', rest', fault, .token (isLongest_of_lexeme hlexeme) hcuts, hfault⟩

end Cutting

section Places

/-- No token is spelled by nothing. -/
theorem IsSpelled.ne_nil (h : IsSpelled piece (.ok token)) : piece ≠ [] := by
  obtain ⟨c, more, rfl, -⟩ := h.isLexeme
  exact List.cons_ne_nil c more

/-- Every token has the place of a longest piece of the text. -/
theorem Cuts.exists_piece (h : Cuts start cs ts stop rest) :
    ∀ t ∈ ts, ∃ before piece after, cs = before ++ (piece ++ after) ∧
      t.span = ⟨start + byteLength before, start + byteLength before + byteLength piece⟩ ∧
      IsLongest piece t.item (piece ++ after) := by
  induction h with
  | done => simp
  | @blank start stop c text rest ts _ _ ih =>
    intro t ht
    obtain ⟨before, piece, after, rfl, hspan, hlongest⟩ := ih t ht
    exact ⟨c :: before, piece, after, rfl, by simp [hspan, Nat.add_assoc], hlongest⟩
  | @token start stop piece text rest token ts hpiece _ ih =>
    intro t ht
    rcases List.mem_cons.mp ht with rfl | hlater
    · exact ⟨[], piece, text, rfl, rfl, hpiece⟩
    · obtain ⟨before, piece', after, rfl, hspan, hlongest⟩ := ih t hlater
      exact ⟨piece ++ before, piece', after, by simp, by simp [hspan, Nat.add_assoc], hlongest⟩

/-- The spans lie one behind the other. -/
theorem Cuts.pairwise (h : Cuts start cs ts stop rest) :
    ts.Pairwise fun t t' => t.span.stop ≤ t'.span.start := by
  induction h with
  | done => exact .nil
  | blank _ _ ih => exact ih
  | @token start stop piece text rest token ts _ hcuts ih =>
    refine List.pairwise_cons.mpr ⟨fun t ht => ?_, ih⟩
    obtain ⟨before, _, _, -, hspan, -⟩ := hcuts.exists_piece t ht
    rw [hspan]
    exact Nat.le_add_right _ _

/-- What is cut off and lies in no span is a blank. -/
theorem Cuts.mem_blanks (h : Cuts start cs ts stop rest) {before mid : List Char}
    (hcs : cs = before ++ c :: (mid ++ rest))
    (houtside : ∀ t ∈ ts, ¬ t.span.Covers (start + byteLength before)) :
    c ∈ [' ', '\t', '\r', '\n'] := by
  induction h generalizing before with
  | done start text =>
    have hlength := congrArg List.length hcs
    simp only [List.length_append, List.length_cons] at hlength
    omega
  | @blank start stop d text rest ts hd _ ih =>
    cases before with
    | nil => exact (List.cons.inj hcs).1 ▸ hd
    | cons b before =>
      obtain ⟨rfl, htext⟩ := List.cons.inj hcs
      refine ih htext fun t ht => ?_
      simpa [Nat.add_assoc] using houtside t ht
  | @token start stop piece text rest token ts _ _ ih =>
    obtain ⟨hfirst, hlater⟩ := List.forall_mem_cons.mp houtside
    -- A character inside the first piece would be covered by its span.
    have hbehind : piece.length ≤ before.length := by
      by_contra hinside
      obtain ⟨tail, rfl⟩ : before <+: piece :=
        List.prefix_of_prefix_length_le ⟨_, hcs.symm⟩ ⟨text, rfl⟩ (by omega)
      have htail : tail ≠ [] := by
        rintro rfl
        simp at hinside
      have := byteLength_pos htail
      refine hfirst ⟨Nat.le_add_right _ _, ?_⟩
      simp only [byteLength_append]
      omega
    obtain ⟨before, rfl⟩ : piece <+: before :=
      List.prefix_of_prefix_length_le ⟨text, rfl⟩ ⟨_, hcs.symm⟩ hbehind
    rw [List.append_assoc, List.append_cancel_left_eq] at hcs
    refine ih hcs fun t ht => ?_
    simpa [Nat.add_assoc] using hlater t ht

end Places

section Failure

/-- Whether a text starts with a character, other than a blank, that no spelling of a token starts
with, or with a number whose longest spelling has no digit in front of its exponent. -/
inductive IsBlocked (α : Type) [Scalar α] : List Char → Prop
  | character {c : Char} {cs : List Char} (hc : c ∉ [' ', '\t', '\r', '\n'])
      (h : ∀ (more : List Char) (token : Token α), ¬ IsSpelled (c :: more) (.ok token)) :
      IsBlocked α (c :: cs)
  | number {l : Literal} {cs : List Char} (hl : l.IsProper) (hpoint : l.fraction ≠ none)
      (hempty : l.mantissa = [])
      (hlongest : ∀ l' : Literal, l'.IsProper → l'.chars <+: l.chars ++ cs →
        l'.chars.length ≤ l.chars.length) :
      IsBlocked α (l.chars ++ cs)

/-- Whether a character starts a token does not depend on what follows, but for a number. -/
theorem isOk_lexeme (hc : isNumberStart c = false) (cs cs' : List Char) :
    (lexeme c cs : Except (SyntaxFault α) (Token α) × List Char).1.isOk =
      (lexeme c cs' : Except (SyntaxFault α) (Token α) × List Char).1.isOk := by
  by_cases hstar : c = '*'
  · subst hstar
    rw [lexeme_star, lexeme_star]
    split_ifs <;> rfl
  · unfold lexeme
    simp only [if_neg hstar, hc, Bool.false_eq_true, if_false]
    split
    · rfl
    · split_ifs <;> rfl

/-- A literal found without a digit in front of its exponent starts with a point. -/
theorem fraction_scan_ne_none (hc : isNumberStart c = true)
    (h : (Literal.scan (c :: cs)).1.mantissa = []) :
    (Literal.scan (c :: cs)).1.fraction ≠ none := by
  have hwhole := Literal.scan_whole (c :: cs)
  have hfraction := Literal.scan_fraction (c :: cs)
  rw [Literal.mantissa, List.append_eq_nil_iff] at h
  have hdigit : c.isDigit = false := by
    rw [h.1] at hwhole
    by_contra hd
    simp [Bool.eq_true_of_not_eq_false hd] at hwhole
  obtain rfl : c = '.' := by simpa [isNumberStart, hdigit] using hc
  rw [hfraction, List.dropWhile_cons_of_neg (by decide)]
  exact Option.some_ne_none _

/-- A literal without digits in front of its exponent blocks the lexer. -/
theorem isBlocked_of_isNumberStart (hc : isNumberStart c = true)
    (h : (Literal.scan (c :: cs)).1.mantissa = []) : IsBlocked α (c :: cs) := by
  have hblocked : IsBlocked α
      ((Literal.scan (c :: cs)).1.chars ++ (Literal.scan (c :: cs)).2) := by
    refine .number (Literal.scan_isProper _) (fraction_scan_ne_none hc h) h ?_
    rintro l hl ⟨after, htext⟩
    rw [Literal.scan_append] at htext
    rw [← htext]
    exact (Literal.scan_extends hl after).1
  rwa [Literal.scan_append] at hblocked

/-- Where what is taken off the front of a text is no token, the text is blocked. -/
theorem isBlocked_of_lexeme {fault : SyntaxFault α} (hc : isSeparator c = false)
    (h : lexeme c cs = (.error fault, more)) : IsBlocked α (c :: cs) := by
  cases hnumber : isNumberStart c with
  | true =>
    rw [lexeme_of_isNumberStart hnumber] at h
    refine isBlocked_of_isNumberStart hnumber ?_
    by_contra hdigit
    obtain ⟨token, htoken⟩ := ofLiteral_eq_ok (α := α) hdigit
    rw [htoken] at h
    exact absurd (Prod.mk.inj h).1 (by simp)
  | false =>
    refine .character (fun hmem => ?_) fun more' token hspelled => ?_
    · rw [isSeparator_iff.mpr hmem] at hc
      contradiction
    · obtain ⟨d, tail, hpiece, -, hlexeme, -⟩ := hspelled.isLexeme
      obtain ⟨rfl, rfl⟩ := List.cons.inj hpiece
      have hsame := isOk_lexeme (α := α) hnumber cs more'
      rw [h, hlexeme] at hsame
      contradiction

/-- The lexer fails where a lexeme fails. -/
theorem lex_eq_error_of_lexeme {fault : SyntaxFault α} (hc : isSeparator c = false)
    (h : lexeme c cs = (.error fault, more)) :
    ∃ e : Placed (SyntaxFault α), lex start (c :: cs) = .error e := by
  obtain ⟨rest, rfl⟩ := isPrefix_of_lexeme h
  exact ⟨_, lex_fault hc h⟩

/-- A text fails where it is blocked. -/
theorem IsBlocked.lex_eq_error (h : IsBlocked α cs) (start : Nat) :
    ∃ e : Placed (SyntaxFault α), lex start cs = .error e := by
  cases h with
  | @character c cs hc h =>
    have hseparator : isSeparator c = false := by
      rwa [← Bool.not_eq_true, isSeparator_iff]
    cases hlexeme : (lexeme c cs : Except (SyntaxFault α) (Token α) × List Char) with
    | mk result more =>
      cases result with
      | ok token => exact absurd (isSpelled_of_lexeme hlexeme) (h more token)
      | error fault => exact lex_eq_error_of_lexeme hseparator hlexeme
  | @number l cs hl hpoint hempty hlongest =>
    have hfound := Literal.scan_eq_of_longest hl hlongest
    obtain ⟨digits, hfraction⟩ := Option.ne_none_iff_exists'.mp hpoint
    have hwhole : l.whole = [] := (List.append_eq_nil_iff.mp hempty).1
    obtain ⟨more, hchars⟩ : ∃ more, l.chars = '.' :: more := by
      rw [Literal.chars_eq, hwhole, hfraction]
      exact ⟨_, rfl⟩
    rw [hchars, List.cons_append] at hfound ⊢
    have hliteral : (ofLiteral l : Except (SyntaxFault α) (Token α)) =
        .error (.invalidNumber (String.ofList l.chars)) := by
      simp [ofLiteral, Literal.value?_eq_none_iff.mpr hempty]
    have hlexeme := lexeme_of_isNumberStart (α := α) (by decide : isNumberStart '.' = true)
      (more ++ cs)
    rw [hfound, hliteral] at hlexeme
    exact lex_eq_error_of_lexeme (by decide) hlexeme

end Failure

/-- How the tokens of a text cover it: their spans have bytes and lie one behind the other, a
character in none of them is a blank, and each span has the longest spelling of a token that the
text goes on with there, which alone gives the same token. -/
structure IsMunched (text : String) (ts : List (Placed (Token α))) : Prop where
  nonempty : ∀ t ∈ ts, t.span.start < t.span.stop
  increasing : ts.Pairwise fun t t' => t.span.stop ≤ t'.span.start
  blank : ∀ before c after, text.toList = before ++ c :: after →
    (∀ t ∈ ts, ¬ t.span.Covers (byteLength before)) → c ∈ [' ', '\t', '\r', '\n']
  longest : ∀ t ∈ ts, ∃ before piece after, text.toList = before ++ (piece ++ after) ∧
    t.span = ⟨byteLength before, byteLength before + byteLength piece⟩ ∧
    t.span.slice text = String.ofList piece ∧ IsLongest piece t.item (piece ++ after)
  alone : ∀ t ∈ ts, lex 0 (t.span.slice text).toList =
    .ok [⟨t.item, ⟨0, t.span.stop - t.span.start⟩⟩]

/-- What the lexer cuts from a text is munched. -/
theorem Cuts.isMunched {text : String} (h : Cuts 0 text.toList ts stop []) :
    IsMunched text ts := by
  have hpiece : ∀ t ∈ ts, ∃ before piece after, text.toList = before ++ (piece ++ after) ∧
      t.span = ⟨byteLength before, byteLength before + byteLength piece⟩ ∧
      t.span.slice text = String.ofList piece ∧ IsLongest piece t.item (piece ++ after) := by
    intro t ht
    obtain ⟨before, piece, after, htext, hspan, hlongest⟩ := h.exists_piece t ht
    rw [Nat.zero_add] at hspan
    refine ⟨before, piece, after, htext, hspan, ?_, hlongest⟩
    rw [hspan, Span.slice_of_append htext]
  refine ⟨fun t ht => ?_, h.pairwise, fun before c after htext houtside => ?_, hpiece,
    fun t ht => ?_⟩
  · obtain ⟨before, piece, after, -, hspan, -, hlongest⟩ := hpiece t ht
    rw [hspan]
    exact Nat.lt_add_of_pos_right (byteLength_pos hlongest.isSpelled.ne_nil)
  · rw [← List.append_nil after] at htext
    refine h.mem_blanks htext fun t ht => ?_
    rw [Nat.zero_add]
    exact houtside t ht
  · obtain ⟨before, piece, after, -, hspan, hslice, hlongest⟩ := hpiece t ht
    rw [hslice, String.toList_ofList, lex_eq_of_isSpelled hlongest.isSpelled, hspan,
      Nat.zero_add, Nat.add_sub_cancel_left]

/-- The tokens of a text cover it piece by piece, each the longest at its place. A text fails
exactly if the cutting reaches a character that starts no token or a number without a digit in front
of its exponent. -/
theorem lex_munches (text : String) :
    (∀ ts : List (Placed (Token α)), lex 0 text.toList = .ok ts → IsMunched text ts) ∧
      ((∃ e : Placed (SyntaxFault α), lex 0 text.toList = .error e) ↔
        ∃ (ts : List (Placed (Token α))) (stop : Nat) (rest : List Char),
          Cuts 0 text.toList ts stop rest ∧ IsBlocked α rest) := by
  refine ⟨fun ts h => ?_, fun ⟨e, h⟩ => ?_, fun ⟨ts, stop, rest, hcuts, hblocked⟩ => ?_⟩
  · obtain ⟨stop, hcuts⟩ := cuts_of_lex h
    exact hcuts.isMunched
  · obtain ⟨ts, stop, c, more, rest, fault, hcuts, hc, hlexeme⟩ := exists_cuts_of_lex_eq_error h
    exact ⟨ts, stop, _, hcuts, isBlocked_of_lexeme hc hlexeme⟩
  · obtain ⟨e, he⟩ := hblocked.lex_eq_error stop
    exact ⟨e, by rw [hcuts.lex_eq, he]; rfl⟩

/-- Longest pieces: an exponent with its digits belongs to the number, one without digits is a name
of its own, and two stars are one operator. A point alone is no number. -/
theorem lex_munches_exponents :
    (∃ ts : List (Placed (Token Float)), lex 0 "1.5e3**x2 - .5E".toList = .ok ts ∧
      ts.map Placed.span = [⟨0, 5⟩, ⟨5, 7⟩, ⟨7, 9⟩, ⟨10, 11⟩, ⟨12, 14⟩, ⟨14, 15⟩] ∧
      IsMunched "1.5e3**x2 - .5E" ts) ∧
      ∃ (ts : List (Placed (Token Float))) (stop : Nat) (rest : List Char),
        Cuts 0 "2E*.".toList ts stop rest ∧ IsBlocked Float rest := by
  constructor
  · have hspans : ((lex 0 "1.5e3**x2 - .5E".toList :
        Except (Placed (SyntaxFault Float)) _).toOption.map (List.map Placed.span)) =
        some [⟨0, 5⟩, ⟨5, 7⟩, ⟨7, 9⟩, ⟨10, 11⟩, ⟨12, 14⟩, ⟨14, 15⟩] := by decide +kernel
    obtain ⟨ts, hts, hspans⟩ := Option.map_eq_some_iff.mp hspans
    rw [toOption_eq_some_iff] at hts
    exact ⟨ts, hts, hspans, (lex_munches "1.5e3**x2 - .5E").1 ts hts⟩
  · have hfails : (lex 0 "2E*.".toList : Except (Placed (SyntaxFault Float)) _).isOk = false := by
      decide +kernel
    exact (lex_munches "2E*.").2.mp (exists_eq_error_of_isOk hfails)

end Token

end ErrorBudget
