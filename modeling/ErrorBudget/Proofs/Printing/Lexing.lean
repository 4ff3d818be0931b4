import ErrorBudget.Proofs.Token.Steps
import Mathlib

/-!
# Texts in pieces

A text is cut into tokens piece by piece: `Lexes` says that a piece gives certain tokens in front of
a given rest, and pieces that follow each other give their tokens one behind the other
(`Lexes.append`). Operators and parentheses may stand in front of anything; an identifier or a
number takes no more than its own characters if the rest is apart from it (`Apart`).
-/

set_option autoImplicit false

namespace ErrorBudget

/-- What may follow an identifier or a number without becoming part of it. -/
def Apart (rest : List Char) : Prop :=
  ∀ c ∈ rest.head?, Token.isNamePart c = false ∧ c ≠ '.'

/-- The characters of an identifier. -/
def IsIdentifier (name : String) : Prop :=
  ∃ c cs, name.toList = c :: cs ∧ Token.isNameStart c = true ∧ cs.all Token.isNamePart = true

/-- A literal without an exponent: digits with at most one point. -/
structure Literal.IsPlain (l : Literal) : Prop where
  whole : l.whole.all Char.isDigit = true
  fraction : (l.fraction.getD []).all Char.isDigit = true
  exponent : l.exponent = none

section Rest

variable {rest : List Char}

/-- Nothing is apart from everything. -/
theorem apart_nil : Apart [] := by
  simp [Apart]

/-- A character that is no part of a name and no point is apart from names and numbers. -/
theorem apart_cons {c : Char} (hc : Token.isNamePart c = false) (hpoint : c ≠ '.') :
    Apart (c :: rest) := by
  simp [Apart, hc, hpoint]

/-- What is taken from a text ends where the characters do not go on. -/
theorem takeWhile_append {p : Char → Bool} {cs : List Char} (hcs : cs.all p = true)
    (hrest : ∀ c ∈ rest.head?, p c = false) : (cs ++ rest).takeWhile p = cs := by
  rw [List.takeWhile_append_of_pos (List.all_eq_true.mp hcs)]
  cases rest with
  | nil => simp
  | cons c rest => simp [hrest c rfl]

/-- What is left of a text begins where the characters do not go on. -/
theorem dropWhile_append {p : Char → Bool} {cs : List Char} (hcs : cs.all p = true)
    (hrest : ∀ c ∈ rest.head?, p c = false) : (cs ++ rest).dropWhile p = rest := by
  rw [List.dropWhile_append_of_pos (List.all_eq_true.mp hcs)]
  cases rest with
  | nil => rfl
  | cons c rest => simp [hrest c rfl]

/-- What is apart from a number does not begin with a digit. -/
theorem Apart.not_isDigit (h : Apart rest) : ∀ c ∈ rest.head?, c.isDigit = false := by
  intro c hc
  have hpart := (h c hc).1
  simp only [Token.isNamePart, Char.isAlphanum, Bool.or_eq_false_iff] at hpart
  exact hpart.1.2

end Rest

section Literals

variable {l : Literal} {rest : List Char}

/-- A plain literal is scanned as a whole if what follows is apart from it. -/
theorem Literal.scan_chars (hl : l.IsPlain) (hrest : Apart rest) :
    Literal.scan (l.chars ++ rest) = (l, rest) := by
  obtain ⟨whole, fraction, exponent⟩ := l
  obtain ⟨hwhole, hfraction, rfl⟩ := hl
  have hchars : (⟨whole, fraction, none⟩ : Literal).chars ++ rest =
      whole ++ (fractionChars fraction ++ rest) := by
    simp [Literal.chars]
  have hstop : ∀ c ∈ (fractionChars fraction ++ rest).head?, c.isDigit = false := by
    cases fraction with
    | none => exact hrest.not_isDigit
    | some digits => simp [fractionChars]
  have hscanFraction : scanFraction (fractionChars fraction ++ rest) = (fraction, rest) := by
    cases fraction with
    | none =>
      cases rest with
      | nil => rfl
      | cons c rest =>
        have hpoint : c ≠ '.' := (hrest c rfl).2
        simp [fractionChars, scanFraction, hpoint]
    | some digits =>
      have hdigits : digits.all Char.isDigit = true := hfraction
      simp only [fractionChars, List.cons_append, scanFraction]
      rw [takeWhile_append hdigits hrest.not_isDigit, dropWhile_append hdigits hrest.not_isDigit]
  -- What is apart begins with no letter, so with no mark of an exponent.
  have hscanExponent : scanExponent rest = none := by
    cases rest with
    | nil => rfl
    | cons c rest =>
      have hpart := (hrest c rfl).1
      have hmark : isMark c = false := by
        simp only [isMark, Bool.or_eq_false_iff, decide_eq_false_iff_not]
        constructor <;>
        · rintro rfl
          exact absurd hpart (by decide)
      simp [scanExponent, hmark]
  rw [hchars, Literal.scan, takeWhile_append hwhole hstop, dropWhile_append hwhole hstop]
  simp only [hscanFraction, hscanExponent]

/-- A plain literal with a value starts with a digit or a point. -/
theorem Literal.IsPlain.exists_chars (hl : l.IsPlain) {m : Nat} {e : Int}
    (hvalue : l.value? = some (m, e)) :
    ∃ c cs, l.chars = c :: cs ∧ Token.isNumberStart c = true := by
  obtain ⟨whole, fraction, exponent⟩ := l
  cases whole with
  | cons c cs =>
    have hc : c.isDigit = true := (Bool.and_eq_true_iff.mp hl.whole).1
    exact ⟨c, _, rfl, by simp [Token.isNumberStart, hc]⟩
  | nil =>
    cases fraction with
    | some digits => exact ⟨'.', _, rfl, rfl⟩
    | none => simp [Literal.value?, Literal.mantissa] at hvalue

end Literals

namespace Token

section Starts

/-- The first character of an identifier or a number is none of those that stand alone. -/
theorem word_start {α : Type} {c : Char} (hc : isNameStart c = true ∨ isNumberStart c = true) :
    isSeparator c = false ∧ c ≠ '*' ∧ (ofSymbol? c : Option (Token α)) = none := by
  have hne (d : Char) (hname : isNameStart d = false) (hnumber : isNumberStart d = false) :
      c ≠ d := by
    rintro rfl
    simp [hname, hnumber] at hc
  refine ⟨?_, hne '*' (by decide) (by decide), ?_⟩
  · simp [isSeparator, hne ' ' (by decide) (by decide), hne '\t' (by decide) (by decide),
      hne '\r' (by decide) (by decide), hne '\n' (by decide) (by decide)]
  · unfold ofSymbol?
    split <;> first | rfl | exact absurd rfl (hne _ (by decide) (by decide))

/-- The first character of an identifier does not begin a number. -/
theorem not_isNumberStart_of_isNameStart {c : Char} (h : isNameStart c = true) :
    isNumberStart c = false := by
  have hpoint : c ≠ '.' := by
    rintro rfl
    exact absurd h (by decide)
  have hdigit : c.isDigit = false := by
    by_cases hunderscore : c = '_'
    · rw [hunderscore]
      rfl
    · simp only [isNameStart, Char.isAlpha, Char.isUpper, Char.isLower, hunderscore,
        Bool.or_eq_true, Bool.and_eq_true, decide_eq_true_eq, decide_false, Bool.false_eq_true,
        or_false] at h
      simp only [Char.isDigit, Bool.and_eq_false_iff, decide_eq_false_iff_not]
      grind
  simp [isNumberStart, hpoint, hdigit]

end Starts

variable {α : Type} [Scalar α]

section Lexemes

variable {c : Char} {token : Token α}

/-- A character that stands alone is a lexeme. -/
theorem lexeme_of_ofSymbol? (h : ofSymbol? c = some token) (cs : List Char) :
    lexeme c cs = (.ok token, []) := by
  simp [lexeme, h]

/-- A lexeme that begins like a number is the longest literal. -/
theorem lexeme_of_isNumberStart (hc : isNumberStart c = true) (cs : List Char) :
    (lexeme c cs : Except (SyntaxFault α) (Token α) × List Char) =
      (ofLiteral (Literal.scan (c :: cs)).1, (Literal.scan (c :: cs)).1.chars.tail) := by
  obtain ⟨-, hstar, hsymbol⟩ := word_start (α := α) (.inr hc)
  simp [lexeme, hsymbol, hstar, hc]

/-- A lexeme that begins like an identifier is the longest identifier. -/
theorem lexeme_of_isNameStart (hc : isNameStart c = true) (cs : List Char) :
    (lexeme c cs : Except (SyntaxFault α) (Token α) × List Char) =
      (.ok (.identifier (String.ofList (c :: cs.takeWhile isNamePart))),
        cs.takeWhile isNamePart) := by
  obtain ⟨-, hstar, hsymbol⟩ := word_start (α := α) (.inl hc)
  simp [lexeme, hsymbol, hstar, not_isNumberStart_of_isNameStart hc, hc]

end Lexemes

/-- In front of the rest, a piece of a text gives the tokens `ts`. -/
def Lexes (piece : List Char) (start : Nat) (rest : List Char) (ts : List (Placed (Token α)))
    (stop : Nat) : Prop :=
  lex start (piece ++ rest) = (lex stop rest).map (ts ++ ·)

variable {piece piece' rest : List Char} {start mid stop : Nat}
  {ts ts' : List (Placed (Token α))}

/-- Two pieces give their tokens one behind the other. -/
theorem Lexes.append (h : Lexes piece start (piece' ++ rest) ts mid)
    (h' : Lexes piece' mid rest ts' stop) :
    Lexes (piece ++ piece') start rest (ts ++ ts') stop := by
  unfold Lexes at h h' ⊢
  rw [List.append_assoc, h, h']
  cases (lex stop rest : Except (Placed (SyntaxFault α)) (List (Placed (Token α)))) with
  | error failure => rfl
  | ok tokens => simp [Except.map]

/-- A piece at the end gives all tokens that are left. -/
theorem Lexes.lex_eq_ok (h : Lexes piece start [] ts stop) : lex start piece = .ok ts := by
  unfold Lexes at h
  simpa [lex, Except.map] using h

/-- A blank gives no token. -/
theorem lexes_blank (start : Nat) (rest : List Char) :
    Lexes (α := α) [' '] start rest [] (start + ' '.utf8Size) := by
  unfold Lexes
  rw [List.singleton_append, lex_separator (by decide)]
  cases (lex (start + ' '.utf8Size) rest : Except (Placed (SyntaxFault α)) _) <;> rfl

/-- A lexeme is a piece that gives one token. -/
theorem lexes_lexeme {c : Char} {more : List Char} {token : Token α}
    (hc : isSeparator c = false) (h : lexeme c (more ++ rest) = (.ok token, more)) (start : Nat) :
    ∃ s stop, Lexes (c :: more) start rest [⟨token, s⟩] stop := by
  refine ⟨⟨start, start + byteLength (c :: more)⟩, start + byteLength (c :: more), ?_⟩
  unfold Lexes
  rw [List.cons_append, lex_token hc h]
  rfl

/-- A character that stands alone gives its token. -/
theorem lexes_symbol {c : Char} {token : Token α} (h : ofSymbol? c = some token) (start : Nat)
    (rest : List Char) :
    ∃ s stop, Lexes [c] start rest [⟨token, s⟩] stop := by
  have hc : isSeparator c = false := by
    unfold ofSymbol? at h
    split at h <;> first | rfl | contradiction
  exact lexes_lexeme hc (lexeme_of_ofSymbol? h _) start

/-- An opening parenthesis gives its token. -/
theorem lexes_leftParen (start : Nat) (rest : List Char) :
    ∃ s stop, Lexes (α := α) ['('] start rest [⟨.leftParen, s⟩] stop :=
  lexes_symbol rfl start rest

/-- A closing parenthesis gives its token. -/
theorem lexes_rightParen (start : Nat) (rest : List Char) :
    ∃ s stop, Lexes (α := α) [')'] start rest [⟨.rightParen, s⟩] stop :=
  lexes_symbol rfl start rest

/-- A minus sign gives its token. -/
theorem lexes_minus (start : Nat) (rest : List Char) :
    ∃ s stop, Lexes (α := α) ['-'] start rest [⟨.operator .sub, s⟩] stop :=
  lexes_symbol rfl start rest

/-- A caret gives the token of a power. -/
theorem lexes_caret (start : Nat) (rest : List Char) :
    ∃ s stop, Lexes (α := α) ['^'] start rest [⟨.operator .pow, s⟩] stop :=
  lexes_symbol rfl start rest

/-- The text of an operator that stands between blanks. -/
def spacedSymbol (op : Operator) : List Char :=
  [' '] ++ (op.symbol.toList ++ [' '])

/-- An operator between blanks gives its token. -/
theorem lexes_spacedSymbol {op : Operator} (hop : op ≠ .pow) (start : Nat) (rest : List Char) :
    ∃ s stop, Lexes (α := α) (spacedSymbol op) start rest [⟨.operator op, s⟩] stop := by
  obtain ⟨c, hsymbol, hc, hlexeme⟩ : ∃ c, op.symbol.toList = [c] ∧ isSeparator c = false ∧
      (lexeme c ([] ++ ([' '] ++ rest)) : Except (SyntaxFault α) (Token α) × List Char) =
        (.ok (.operator op), []) := by
    cases op with
    | add | sub | mul | div => exact ⟨_, rfl, rfl, rfl⟩
    | pow => exact absurd rfl hop
  obtain ⟨s, stop, hop⟩ := lexes_lexeme hc hlexeme (start + ' '.utf8Size)
  have hblank := lexes_blank (α := α) start ([c] ++ [' '] ++ rest)
  rw [spacedSymbol, hsymbol]
  exact ⟨s, _, hblank.append (hop.append (lexes_blank stop rest))⟩

/-- An identifier is one token if what follows is apart from it. -/
theorem lexes_identifier {name : String} (hname : IsIdentifier name) (hrest : Apart rest)
    (start : Nat) :
    ∃ s stop, Lexes (α := α) name.toList start rest [⟨.identifier name, s⟩] stop := by
  obtain ⟨c, cs, hchars, hc, hcs⟩ := hname
  have hname : String.ofList (c :: cs) = name := by rw [← hchars, String.ofList_toList]
  have htake : (cs ++ rest).takeWhile isNamePart = cs :=
    takeWhile_append hcs fun d hd => (hrest d hd).1
  have hlexeme : (lexeme c (cs ++ rest) : Except (SyntaxFault α) (Token α) × List Char) =
      (.ok (.identifier name), cs) := by
    rw [lexeme_of_isNameStart hc, htake, hname]
  rw [hchars]
  exact lexes_lexeme (word_start (α := α) (.inl hc)).1 hlexeme start

/-- A plain literal is one token if what follows is apart from it. -/
theorem lexes_literal {l : Literal} (hl : l.IsPlain) {m : Nat} {e : Int}
    (hvalue : l.value? = some (m, e)) (hrest : Apart rest) (start : Nat) :
    ∃ s stop, Lexes (α := α) l.chars start rest [⟨.number (Scalar.ofDecimal m e), s⟩] stop := by
  have hscan := Literal.scan_chars hl hrest
  obtain ⟨c, cs, hchars, hc⟩ := hl.exists_chars hvalue
  rw [hchars, List.cons_append] at hscan
  have hlexeme : (lexeme c (cs ++ rest) : Except (SyntaxFault α) (Token α) × List Char) =
      (.ok (.number (Scalar.ofDecimal m e)), cs) := by
    simp [lexeme_of_isNumberStart hc, hscan, ofLiteral, hvalue, hchars]
  rw [hchars]
  exact lexes_lexeme (word_start (α := α) (.inr hc)).1 hlexeme start

section Pieces

/-- In front of anything that is apart from it, a text gives tokens of some kind. -/
def Gives (part : List (Placed (Token α)) → Prop) (cs : List Char) : Prop :=
  ∀ start rest, Apart rest → ∃ ts stop, part ts ∧ Lexes cs start rest ts stop

variable {part part' whole : List (Placed (Token α)) → Prop} {cs cs' : List Char}

/-- Tokens of some kind are tokens of a wider kind. -/
theorem Gives.imp (h : Gives part cs) (hpart : ∀ ts, part ts → whole ts) : Gives whole cs := by
  intro start rest hrest
  obtain ⟨ts, stop, hts, hlexes⟩ := h start rest hrest
  exact ⟨ts, stop, hpart ts hts, hlexes⟩

/-- Two texts give their tokens one behind the other if the second is apart from the first. -/
theorem Gives.append (h : Gives part cs) (h' : Gives part' cs')
    (happart : ∀ rest, Apart (cs' ++ rest))
    (hwhole : ∀ ts ts', part ts → part' ts' → whole (ts ++ ts')) : Gives whole (cs ++ cs') := by
  intro start rest hrest
  obtain ⟨ts, mid, hts, hlexes⟩ := h start (cs' ++ rest) (happart rest)
  obtain ⟨ts', stop, hts', hlexes'⟩ := h' mid rest hrest
  exact ⟨ts ++ ts', stop, hwhole ts ts' hts hts', hlexes.append hlexes'⟩

/-- A token that may stand in front of anything. -/
theorem Gives.cons {token : Token α} (h : Gives part cs)
    (htoken : ∀ start rest, ∃ s stop, Lexes piece start rest [⟨token, s⟩] stop)
    (hwhole : ∀ s ts, part ts → whole (⟨token, s⟩ :: ts)) : Gives whole (piece ++ cs) := by
  intro start rest hrest
  obtain ⟨s, mid, hpiece⟩ := htoken start (cs ++ rest)
  obtain ⟨ts, stop, hts, hlexes⟩ := h mid rest hrest
  exact ⟨⟨token, s⟩ :: ts, stop, hwhole s ts hts, hpiece.append hlexes⟩

/-- An identifier gives one token. -/
theorem gives_identifier {name : String} (hname : IsIdentifier name)
    (hpart : ∀ s, part [⟨.identifier name, s⟩]) : Gives part name.toList := by
  intro start rest hrest
  obtain ⟨s, stop, hlexes⟩ := lexes_identifier (α := α) hname hrest start
  exact ⟨_, stop, hpart s, hlexes⟩

/-- A plain literal gives one token, with its value. -/
theorem gives_literal {l : Literal} (hl : l.IsPlain) {m : Nat} {e : Int}
    (hvalue : l.value? = some (m, e)) (hpart : ∀ s, part [⟨.number (Scalar.ofDecimal m e), s⟩]) :
    Gives part l.chars := by
  intro start rest hrest
  obtain ⟨s, stop, hlexes⟩ := lexes_literal (α := α) hl hvalue hrest start
  exact ⟨_, stop, hpart s, hlexes⟩

/-- A closing parenthesis is apart from everything in front of it. -/
theorem apart_rightParen (rest : List Char) : Apart ([')'] ++ rest) :=
  apart_cons (by decide) (by decide)

/-- A text in parentheses. -/
theorem Gives.enclosed (h : Gives part cs)
    (hwhole : ∀ s ts s', part ts → whole (⟨.leftParen, s⟩ :: ts ++ [⟨.rightParen, s'⟩])) :
    Gives whole (['('] ++ (cs ++ [')'])) := by
  have hclose : Gives (α := α) (fun ts => ∃ s', ts = [⟨.rightParen, s'⟩]) [')'] := by
    intro start rest _
    obtain ⟨s', stop, hlexes⟩ := lexes_rightParen (α := α) start rest
    exact ⟨_, stop, ⟨s', rfl⟩, hlexes⟩
  have hinner : Gives (fun ts => ∃ inner s', part inner ∧ ts = inner ++ [⟨.rightParen, s'⟩])
      (cs ++ [')']) := by
    refine h.append hclose apart_rightParen ?_
    rintro ts ts' hts ⟨s', rfl⟩
    exact ⟨ts, s', hts, rfl⟩
  refine hinner.cons lexes_leftParen ?_
  rintro s ts ⟨inner, s', hinner, rfl⟩
  exact hwhole s inner s' hinner

/-- A text in parentheses behind an identifier. -/
theorem Gives.called {name : String} (hname : IsIdentifier name) (h : Gives part cs)
    (hwhole : ∀ s s' ts s'', part ts → whole
      (⟨.identifier name, s⟩ :: ⟨.leftParen, s'⟩ :: ts ++ [⟨.rightParen, s''⟩])) :
    Gives whole (name.toList ++ (['('] ++ (cs ++ [')']))) := by
  have hidentifier : Gives (α := α) (fun ts => ∃ s, ts = [⟨.identifier name, s⟩]) name.toList :=
    gives_identifier hname fun s => ⟨s, rfl⟩
  have hargument : Gives (fun ts => ∃ s inner s', part inner ∧
      ts = ⟨.leftParen, s⟩ :: inner ++ [⟨.rightParen, s'⟩]) (['('] ++ (cs ++ [')'])) :=
    h.enclosed fun s ts s' hts => ⟨s, ts, s', hts, rfl⟩
  refine hidentifier.append hargument (fun rest => apart_cons (by decide) (by decide)) ?_
  rintro _ _ ⟨s, rfl⟩ ⟨s', inner, s'', hinner, rfl⟩
  exact hwhole s s' inner s'' hinner

/-- Two texts with a token between them that the first is apart from. -/
theorem Gives.between {token : Token α} (h : Gives part cs) (h' : Gives part' cs')
    (htoken : ∀ start rest, ∃ s stop, Lexes piece start rest [⟨token, s⟩] stop)
    (happart : ∀ rest, Apart (piece ++ cs' ++ rest))
    (hwhole : ∀ ts s ts', part ts → part' ts' → whole (ts ++ ⟨token, s⟩ :: ts')) :
    Gives whole (cs ++ (piece ++ cs')) := by
  have hright : Gives (fun ts => ∃ s ts', part' ts' ∧ ts = ⟨token, s⟩ :: ts') (piece ++ cs') :=
    h'.cons htoken fun s ts' hts' => ⟨s, ts', hts', rfl⟩
  refine h.append hright happart ?_
  rintro ts _ hts ⟨s, ts', hts', rfl⟩
  exact hwhole ts s ts' hts hts'

/-- Two texts with an operator between them. -/
theorem Gives.joined {op : Operator} (hop : op ≠ .pow) (h : Gives part cs) (h' : Gives part' cs')
    (hwhole : ∀ ts s ts', part ts → part' ts' → whole (ts ++ ⟨.operator op, s⟩ :: ts')) :
    Gives whole (cs ++ (spacedSymbol op ++ cs')) :=
  h.between h' (lexes_spacedSymbol hop) (fun _ => apart_cons (by decide) (by decide)) hwhole

/-- Nothing stands around the operator of a power. -/
theorem Gives.raised (h : Gives part cs) (h' : Gives part' cs')
    (hwhole : ∀ ts s ts', part ts → part' ts' → whole (ts ++ ⟨.operator .pow, s⟩ :: ts')) :
    Gives whole (cs ++ (['^'] ++ cs')) :=
  h.between h' lexes_caret (fun _ => apart_cons (by decide) (by decide)) hwhole

end Pieces

end Token

end ErrorBudget
