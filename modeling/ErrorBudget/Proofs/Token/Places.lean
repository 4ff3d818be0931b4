import ErrorBudget.Proofs.Printing.Lexing
import ErrorBudget.Proofs.Token.Separation

/-!
# Places of lexemes

Every token of a text, and the failure of a text that is refused, stands at the bytes of the lexeme
that it was made from (`Token.isTaken_of_lex`, `Token.isTaken_of_lex_eq_error`). A lexeme has the
spelling of its token, or the one for which it is refused (`Token.isSpelled_of_lexeme`). Places in a
part of a text are places in the text, also where the part is the left side of an equation
(`Token.IsTaken.append_stopper`).
-/

set_option autoImplicit false

namespace ErrorBudget

section Bytes

variable {t : String} {before piece after : List Char}

/-- The number of bytes of a list of characters in UTF-8. -/
theorem byteLength_eq_utf8Len (cs : List Char) : byteLength cs = String.utf8Len cs := by
  induction cs with
  | nil => rfl
  | cons c cs ih => simp [ih, Nat.add_comm]

/-- The number of bytes of a text in UTF-8. -/
theorem byteLength_toList (t : String) : byteLength t.toList = t.utf8ByteSize := by
  rw [byteLength_eq_utf8Len, ← String.utf8ByteSize_ofList, String.ofList_toList]

/-- A list that is not empty has at least one byte. -/
theorem byteLength_pos {cs : List Char} (h : cs ≠ []) : 0 < byteLength cs := by
  obtain ⟨c, cs, rfl⟩ := List.exists_cons_of_ne_nil h
  have := c.utf8Size_pos
  simp only [byteLength_cons]
  omega

/-- The bytes of the first characters of a text end between two characters. -/
theorem isValid_of_append (h : t.toList = before ++ after) :
    String.Pos.Raw.IsValid t ⟨byteLength before⟩ := by
  refine String.Pos.Raw.isValid_iff_exists_append.mpr
    ⟨String.ofList before, String.ofList after, ?_, ?_⟩
  · rw [← String.ofList_append, ← h, String.ofList_toList]
  · rw [byteLength_eq_utf8Len, ← String.utf8ByteSize_ofList]
    rfl

/-- The text between the two ends of a span. -/
def Span.slice (s : Span) (t : String) : String :=
  String.Pos.Raw.extract t ⟨s.start⟩ ⟨s.stop⟩

/-- A span that begins behind a text and is as long as the next piece is the place of this piece. -/
theorem Span.slice_of_append (h : t.toList = before ++ (piece ++ after)) :
    Span.slice ⟨byteLength before, byteLength before + byteLength piece⟩ t =
      String.ofList piece := by
  have htext : t = String.ofList (before ++ piece ++ after) := by
    rw [List.append_assoc, ← h, String.ofList_toList]
  rw [Span.slice, htext, byteLength_eq_utf8Len, byteLength_eq_utf8Len]
  exact String.extract_of_valid before piece after

end Bytes

namespace Literal

/-- Whether the parts of a literal are digits, and its exponent is complete. -/
structure IsProper (l : Literal) : Prop where
  whole : l.whole.all Char.isDigit = true
  fraction : (l.fraction.getD []).all Char.isDigit = true
  exponent : ∀ e ∈ l.exponent, isMark e.mark = true ∧ (∀ s ∈ e.sign, isSign s = true) ∧
    e.digits ≠ [] ∧ e.digits.all Char.isDigit = true

/-- An exponent that is scanned has its mark, its sign and at least one digit. -/
theorem scanDigits_isProper {mark : Char} {sign : Option Char} {cs rest : List Char} {e : Exponent}
    (h : scanDigits mark sign cs = some (e, rest)) :
    e.mark = mark ∧ e.sign = sign ∧ e.digits ≠ [] ∧ e.digits.all Char.isDigit = true := by
  unfold scanDigits at h
  split at h
  · contradiction
  · rename_i d ds hdigits
    obtain ⟨rfl, -⟩ := Prod.mk.inj (Option.some.inj h)
    exact ⟨rfl, rfl, List.cons_ne_nil d ds, hdigits ▸ List.all_takeWhile⟩

/-- An exponent that is scanned begins with a mark and has at least one digit. -/
theorem scanExponent_isProper {cs rest : List Char} {e : Exponent}
    (h : scanExponent cs = some (e, rest)) :
    isMark e.mark = true ∧ (∀ s ∈ e.sign, isSign s = true) ∧ e.digits ≠ [] ∧
      e.digits.all Char.isDigit = true := by
  rcases cs with _ | ⟨c, _ | ⟨s, cs⟩⟩
  · contradiction
  · simp [scanExponent] at h
  · simp only [scanExponent] at h
    split_ifs at h with hmark hsign
    · obtain ⟨hc, hs, hdigits⟩ := scanDigits_isProper h
      exact ⟨hc ▸ hmark, by simp [hs, hsign], hdigits⟩
    · obtain ⟨hc, hs, hdigits⟩ := scanDigits_isProper h
      exact ⟨hc ▸ hmark, by simp [hs], hdigits⟩

/-- A literal that is scanned consists of digits. -/
theorem scan_isProper (cs : List Char) : (scan cs).1.IsProper := by
  have hfraction (cs : List Char) : ((scanFraction cs).1.getD []).all Char.isDigit = true := by
    unfold scanFraction
    split
    · exact List.all_takeWhile
    · rfl
  unfold scan
  dsimp only
  split
  · rename_i e rest he
    refine ⟨List.all_takeWhile, hfraction _, ?_⟩
    intro e' he'
    obtain rfl : e = e' := by simpa using he'
    exact scanExponent_isProper he
  · exact ⟨List.all_takeWhile, hfraction _, by simp⟩

/-- What starts like a number is a literal that starts so. -/
theorem chars_scan_cons {c : Char} (hc : Token.isNumberStart c = true) (cs : List Char) :
    (scan (c :: cs)).1.chars = c :: (scan (c :: cs)).1.chars.tail := by
  have hne : (scan (c :: cs)).1.chars ≠ [] := by
    unfold scan
    by_cases hdigit : c.isDigit = true
    · dsimp only
      split <;> simp [chars, hdigit]
    · have hpoint : c = '.' := by simpa [Token.isNumberStart, hdigit] using hc
      subst hpoint
      dsimp only
      split <;> simp [chars, hdigit, scanFraction, fractionChars]
  have happend := scan_append (c :: cs)
  cases hchars : (scan (c :: cs)).1.chars with
  | nil => exact absurd hchars hne
  | cons d ds =>
    rw [hchars, List.cons_append] at happend
    rw [(List.cons.inj happend).1, List.tail_cons]

end Literal

namespace Token

variable {α : Type} [Scalar α]

/-- How a token is spelled, and which spellings are refused: a literal without a digit in front of
its exponent, and a character that starts no token. -/
inductive IsSpelled : List Char → Except (SyntaxFault α) (Token α) → Prop
  | number {l : Literal} {m : Nat} {e : Int} (hl : l.IsProper) (h : l.value? = some (m, e)) :
      IsSpelled l.chars (.ok (.number (Scalar.ofDecimal m e)))
  | identifier {name : String} (h : IsIdentifier name) :
      IsSpelled name.toList (.ok (.identifier name))
  | operator (op : Operator) : IsSpelled op.symbol.toList (.ok (.operator op))
  | caret : IsSpelled ['^'] (.ok (.operator .pow))
  | leftParen : IsSpelled ['('] (.ok .leftParen)
  | rightParen : IsSpelled [')'] (.ok .rightParen)
  | comma : IsSpelled [','] (.ok .comma)
  | invalidNumber {l : Literal} (hl : l.IsProper) (h : l.mantissa = []) :
      IsSpelled l.chars (.error (.invalidNumber (String.ofList l.chars)))
  | unexpectedCharacter {c : Char} (hsymbol : c ∉ ['+', '-', '*', '/', '^', '(', ')', ','])
      (hnumber : isNumberStart c = false) (hname : isNameStart c = false) :
      IsSpelled [c] (.error (.unexpectedCharacter c))

/-- A character that stands alone spells its token. -/
theorem isSpelled_of_ofSymbol? {c : Char} {token : Token α} (h : ofSymbol? c = some token) :
    IsSpelled [c] (.ok token) := by
  unfold ofSymbol? at h
  split at h
  · exact Option.some.inj h ▸ .operator .add
  · exact Option.some.inj h ▸ .operator .sub
  · exact Option.some.inj h ▸ .operator .div
  · exact Option.some.inj h ▸ .caret
  · exact Option.some.inj h ▸ .leftParen
  · exact Option.some.inj h ▸ .rightParen
  · exact Option.some.inj h ▸ .comma
  · contradiction

/-- A literal spells the token that is made of it. -/
theorem isSpelled_ofLiteral {l : Literal} (hl : l.IsProper) :
    IsSpelled (α := α) l.chars (ofLiteral l) := by
  unfold ofLiteral
  split
  · rename_i m e hvalue
    exact .number hl hvalue
  · rename_i hvalue
    refine .invalidNumber hl ?_
    unfold Literal.value? at hvalue
    split_ifs at hvalue with hempty
    exact List.isEmpty_iff.mp hempty

/-- What is taken off the front of a text has a spelling of what it gives. -/
theorem isSpelled_of_lexeme {c : Char} {cs more : List Char} {r : Except (SyntaxFault α) (Token α)}
    (h : lexeme c cs = (r, more)) : IsSpelled (c :: more) r := by
  unfold lexeme at h
  split at h
  · rename_i token hsymbol
    obtain ⟨rfl, rfl⟩ := Prod.mk.inj h
    exact isSpelled_of_ofSymbol? hsymbol
  · rename_i hsymbol
    split_ifs at h with hstar hnumber hname
    · subst hstar
      split at h
      · obtain ⟨rfl, rfl⟩ := Prod.mk.inj h
        exact .operator .pow
      · obtain ⟨rfl, rfl⟩ := Prod.mk.inj h
        exact .operator .mul
    · obtain ⟨rfl, rfl⟩ := Prod.mk.inj h
      rw [← Literal.chars_scan_cons hnumber]
      exact isSpelled_ofLiteral (Literal.scan_isProper (c :: cs))
    · obtain ⟨rfl, rfl⟩ := Prod.mk.inj h
      have hidentifier : IsIdentifier (String.ofList (c :: cs.takeWhile isNamePart)) :=
        ⟨c, _, String.toList_ofList, hname, List.all_takeWhile⟩
      simpa using IsSpelled.identifier (α := α) hidentifier
    · obtain ⟨rfl, rfl⟩ := Prod.mk.inj h
      refine .unexpectedCharacter ?_ (Bool.eq_false_of_not_eq_true hnumber)
        (Bool.eq_false_of_not_eq_true hname)
      intro hmem
      simp only [List.mem_cons, List.not_mem_nil, or_false] at hmem
      rcases hmem with rfl | rfl | rfl | rfl | rfl | rfl | rfl | rfl <;> contradiction

/-- Off a text whose first character stands at the byte `start`, the lexer takes at the span `s` a
lexeme with the result `r`. -/
def IsTaken (start : Nat) (cs : List Char) (r : Except (SyntaxFault α) (Token α)) (s : Span) :
    Prop :=
  ∃ before c more after, cs = before ++ (c :: more ++ after) ∧
    lexeme c (more ++ after) = (r, more) ∧
    s = ⟨start + byteLength before, start + byteLength before + byteLength (c :: more)⟩

variable {start : Nat} {cs : List Char} {r : Except (SyntaxFault α) (Token α)} {s : Span}

/-- A lexeme behind a text is one of the whole text. -/
theorem IsTaken.behind {w : List Char} (h : IsTaken (start + byteLength w) cs r s) :
    IsTaken start (w ++ cs) r s := by
  obtain ⟨before, c, more, after, rfl, hlexeme, rfl⟩ := h
  exact ⟨w ++ before, c, more, after, by simp, hlexeme, by simp [Nat.add_assoc]⟩

/-- In front of a stopper the lexemes are those of a text that ends there. -/
theorem IsTaken.append_stopper {b : Char} {rest : List Char} (hb : IsStopper b)
    (h : IsTaken start cs r s) : IsTaken start (cs ++ b :: rest) r s := by
  obtain ⟨before, c, more, after, rfl, hlexeme, rfl⟩ := h
  refine ⟨before, c, more, after ++ b :: rest, by simp, ?_, rfl⟩
  rw [← List.append_assoc, lexeme_append_stopper hb, hlexeme]

/-- The first lexeme of a text stands at its beginning. -/
theorem isTaken_front {c : Char} {more rest : List Char} (h : lexeme c (more ++ rest) = (r, more)) :
    IsTaken start (c :: (more ++ rest)) r ⟨start, start + byteLength (c :: more)⟩ :=
  ⟨[], c, more, rest, rfl, h, rfl⟩

/-- What is taken off a text is a piece of it with a spelling of what it gives. -/
theorem IsTaken.exists_piece (h : IsTaken start cs r s) :
    ∃ before piece after, cs = before ++ (piece ++ after) ∧ piece ≠ [] ∧ IsSpelled piece r ∧
      s = ⟨start + byteLength before, start + byteLength before + byteLength piece⟩ := by
  obtain ⟨before, c, more, after, hcs, hlexeme, hs⟩ := h
  exact ⟨before, c :: more, after, hcs, List.cons_ne_nil c more, isSpelled_of_lexeme hlexeme, hs⟩

/-- Every token stands where it was taken. -/
theorem isTaken_of_lex {ts : List (Placed (Token α))} (h : lex start cs = .ok ts) :
    ∀ t ∈ ts, IsTaken start cs (.ok t.item) t.span := by
  induction cs using lex_induction α generalizing start ts with
  | nil =>
    rw [lex_nil] at h
    obtain rfl := Except.ok.inj h
    simp
  | separator c cs hc ih =>
    rw [lex_separator hc] at h
    intro t ht
    exact (ih h t ht).behind (w := [c])
  | fault c more rest fault hc hlexeme =>
    rw [lex_fault hc hlexeme] at h
    contradiction
  | token c more rest token hc hlexeme ih =>
    rw [lex_token hc hlexeme, map_eq_ok_iff] at h
    obtain ⟨ts', hrest, rfl⟩ := h
    intro t ht
    rcases List.mem_cons.mp ht with rfl | hlater
    · exact isTaken_front hlexeme
    · rw [← List.cons_append]
      exact (ih hrest t hlater).behind

/-- A text is refused where the lexeme that is no token was taken. -/
theorem isTaken_of_lex_eq_error {e : Placed (SyntaxFault α)} (h : lex start cs = .error e) :
    IsTaken start cs (.error e.item) e.span := by
  induction cs using lex_induction α generalizing start with
  | nil =>
    rw [lex_nil] at h
    contradiction
  | separator c cs hc ih =>
    rw [lex_separator hc] at h
    exact (ih h).behind (w := [c])
  | fault c more rest fault hc hlexeme =>
    rw [lex_fault hc hlexeme] at h
    obtain rfl := Except.error.inj h
    exact isTaken_front hlexeme
  | token c more rest token hc hlexeme ih =>
    rw [lex_token hc hlexeme, map_eq_error_iff] at h
    rw [← List.cons_append]
    exact (ih h).behind

/-- A text without tokens consists of separators. -/
theorem isSeparator_of_lex_eq_nil (h : lex start cs = .ok ([] : List (Placed (Token α)))) :
    ∀ c ∈ cs, isSeparator c = true := by
  induction cs using lex_induction α generalizing start with
  | nil => simp
  | separator c cs hc ih =>
    rw [lex_separator hc] at h
    exact List.forall_mem_cons.mpr ⟨hc, ih h⟩
  | fault c more rest fault hc hlexeme =>
    rw [lex_fault hc hlexeme] at h
    contradiction
  | token c more rest token hc hlexeme ih =>
    rw [lex_token hc hlexeme, map_eq_ok_iff] at h
    obtain ⟨ts, -, hts⟩ := h
    contradiction

end Token

end ErrorBudget
