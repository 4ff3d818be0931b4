import ErrorBudget.Proofs.Parser.Equation
import ErrorBudget.Proofs.Parser.Steps
import ErrorBudget.Proofs.Token.Places

/-!
# Places of failures

A failure to read an expression is blamed on a lexeme of the text, at the bytes of that lexeme, or
on the place where the text ends, which is a single byte. The parser can not find other places,
since it only ever drops tokens from the front of those that it has been given
(`Parser.accounts_parseExpr`). An equation is read as two texts that start at different bytes, but
the places of their failures are places of the whole text (`Expr.pointsInto_of_parse`).
-/

set_option autoImplicit false

namespace ErrorBudget

variable {α : Type}

/-- What the lexer made of the lexeme that a failure is about. -/
inductive SyntaxFault.Concerns : SyntaxFault α → Except (SyntaxFault α) (Token α) → Prop
  | invalidNumber (literal : String) :
      Concerns (.invalidNumber literal) (.error (.invalidNumber literal))
  | unexpectedCharacter (c : Char) :
      Concerns (.unexpectedCharacter c) (.error (.unexpectedCharacter c))
  | unexpected (token : Token α) : Concerns (.unexpected token) (.ok token)
  | unclosed (token : Token α) : Concerns (.unclosed token) (.ok token)
  | unseparated (token : Token α) : Concerns (.unseparated token) (.ok token)
  | unknownFunction (name : String) : Concerns (.unknownFunction name) (.ok (.identifier name))
  | wrongArity (name : String) (expected found : Nat) :
      Concerns (.wrongArity name expected found) (.ok (.identifier name))
  | emptyParentheses : Concerns .emptyParentheses (.ok .rightParen)

/-- A failure is about one outcome of the lexer only. -/
theorem SyntaxFault.Concerns.unique {fault : SyntaxFault α}
    {r r' : Except (SyntaxFault α) (Token α)} (h : fault.Concerns r) (h' : fault.Concerns r') :
    r = r' := by
  cases h <;> cases h' <;> rfl

namespace Parser

/-- The failures that can be met with some tokens: one of the tokens is blamed, or the place where
the text ends. -/
inductive Blames (fin : Nat) (tokens : Tokens α) : Placed (SyntaxFault α) → Prop
  | token {fault token s} (hfault : fault.Concerns (.ok token)) (h : ⟨token, s⟩ ∈ tokens) :
      Blames fin tokens ⟨fault, s⟩
  | unexpectedEnd : Blames fin tokens ⟨.unexpectedEnd, .single fin⟩
  | unclosedEnd : Blames fin tokens ⟨.unclosedEnd, .single fin⟩

/-- What is blamed on some tokens is blamed on more of them. -/
theorem Blames.mono {fin : Nat} {ts ts' : Tokens α} {e : Placed (SyntaxFault α)}
    (h : Blames fin ts e) (hsub : ts ⊆ ts') : Blames fin ts' e := by
  cases h with
  | token hfault h => exact .token hfault (hsub h)
  | unexpectedEnd => exact .unexpectedEnd
  | unclosedEnd => exact .unclosedEnd

/-- A step takes its tokens from the front, or it fails at one of them or at the end. -/
def Accounts (fin : Nat) (tokens : Tokens α) : Outcome (Tokens α) α → Prop
  | .ok rest => rest <:+ tokens
  | .error e => Blames fin tokens e

/-- A step on some tokens accounts for all tokens that end with them. -/
theorem Accounts.mono {fin : Nat} {ts ts' : Tokens α} {r : Outcome (Tokens α) α}
    (h : Accounts fin ts r) (hsuffix : ts <:+ ts') : Accounts fin ts' r := by
  cases r with
  | ok rest => exact List.IsSuffix.trans h hsuffix
  | error e => exact Blames.mono h hsuffix.subset

/-- A missing parenthesis is blamed on the token in its place, or on the end. -/
theorem accounts_closeParen (fin : Nat) (tokens : Tokens α) :
    Accounts fin tokens ((closeParen fin tokens).map fun rest => rest.val) := by
  rcases tokens with _ | ⟨⟨token, s⟩, tokens⟩
  · exact .unclosedEnd
  · cases token with
    | rightParen => exact List.suffix_cons _ _
    | _ => exact .token (.unclosed _) List.mem_cons_self

/-- A call with the wrong number of arguments is blamed on its name. -/
theorem blames_of_callExpr {fin : Nat} {f : Func} {name : String} {s : Span} {us : List (Expr α)}
    {tokens : Tokens α} {e : Placed (SyntaxFault α)} (h : callExpr f ⟨name, s⟩ us = .error e)
    (hname : ⟨.identifier name, s⟩ ∈ tokens) : Blames fin tokens e := by
  rcases us with _ | ⟨u, _ | ⟨v, us⟩⟩
  · exact Except.error.inj h ▸ .token (.wrongArity ..) hname
  · contradiction
  · exact Except.error.inj h ▸ .token (.wrongArity ..) hname

variable [Scalar α]

mutual

/-- To read an expression takes tokens from the front, or fails at one of them or at the end. -/
theorem accounts_parseExpr (fin least : Nat) (tokens : Tokens α) :
    Accounts fin tokens ((parseExpr fin least tokens).map fun result => result.2.val) := by
  have hoperand := accounts_parseOperand fin tokens
  rw [parseExpr]
  split
  · rename_i e he
    rw [he] at hoperand
    exact hoperand
  · rename_i left rest hrest hleft
    rw [hleft] at hoperand
    have hclimb := (accounts_climb fin least left rest).mono hoperand
    split
    · rename_i e he
      rw [he] at hclimb
      exact hclimb
    · rename_i u rest' hrest' hu
      rw [hu] at hclimb
      exact hclimb
termination_by 4 * tokens.length + 1

/-- To go on behind an operand takes tokens from the front, or fails at one of them or at the
end. -/
theorem accounts_climb (fin least : Nat) (left : Expr α) (tokens : Tokens α) :
    Accounts fin tokens ((climb fin least left tokens).map fun result => result.2.val) := by
  rcases tokens with _ | ⟨⟨token, s⟩, tokens⟩
  · rw [climb]
    · exact List.suffix_rfl
    · simp
  · cases token with
    | operator op =>
      rw [climb]
      split
      · exact List.suffix_rfl
      · have hright := (accounts_parseExpr fin op.rightPrecedence tokens).mono
          (List.suffix_cons ⟨.operator op, s⟩ tokens)
        split
        · rename_i e he
          rw [he] at hright
          exact hright
        · rename_i right rest hrest he
          rw [he] at hright
          have hclimb := (accounts_climb fin least (combine op left right) rest).mono hright
          split
          · rename_i e he
            rw [he] at hclimb
            exact hclimb
          · rename_i u rest' hrest' hu
            rw [hu] at hclimb
            exact hclimb
    | _ =>
      rw [climb]
      · exact List.suffix_rfl
      · simp
termination_by 4 * tokens.length
decreasing_by
  all_goals simp only [List.length_cons]; omega

/-- To read an operand takes tokens from the front, or fails at one of them or at the end. -/
theorem accounts_parseOperand (fin : Nat) (tokens : Tokens α) :
    Accounts fin tokens ((parseOperand fin tokens).map fun result => result.2.val) := by
  rcases tokens with _ | ⟨⟨token, s⟩, tokens⟩
  · rw [parseOperand]
    exact .unexpectedEnd
  have htail : tokens <:+ ⟨token, s⟩ :: tokens := List.suffix_cons _ _
  have hfirst : ⟨token, s⟩ ∈ (⟨token, s⟩ :: tokens : Tokens α) := List.mem_cons_self
  cases token with
  | number x =>
    rw [parseOperand]
    exact htail
  | identifier name =>
    -- Only in front of an opening parenthesis is a name called; its arguments are fewer tokens.
    by_cases hclosed : Closed tokens
    · rw [parseOperand]
      · exact htail
      · exact fun s' ts => hclosed s' ts
    · simp only [Closed, not_forall, ne_eq, not_not] at hclosed
      obtain ⟨s', behind, htokens⟩ := hclosed
      have hbehind : behind <:+ tokens := htokens ▸ List.suffix_cons _ _
      have hlength : behind.length < tokens.length := by simp [htokens]
      have harguments := (accounts_parseArguments fin behind).mono (hbehind.trans htail)
      subst htokens
      rw [parseOperand]
      split
      · exact .token (.unknownFunction name) hfirst
      · split
        · rename_i e he
          rw [he] at harguments
          exact harguments
        · rename_i us rest hrest hus
          rw [hus] at harguments
          split
          · rename_i e he
            exact blames_of_callExpr he hfirst
          · exact harguments
  | operator op =>
    have hsigned := (accounts_parseExpr fin signPrecedence tokens).mono htail
    cases op with
    | sub | add =>
      rw [parseOperand]
      split
      · rename_i e he
        rw [he] at hsigned
        exact hsigned
      · rename_i u rest hrest hu
        rw [hu] at hsigned
        exact hsigned
    | _ =>
      rw [parseOperand] <;> first | exact .token (.unexpected _) hfirst | simp
  | leftParen =>
    by_cases hempty : ∃ s' ts, tokens = ⟨.rightParen, s'⟩ :: ts
    · obtain ⟨s', tokens, rfl⟩ := hempty
      rw [parseOperand]
      exact .token .emptyParentheses (by simp)
    · have hinner := (accounts_parseExpr fin 0 tokens).mono htail
      rw [parseOperand]
      · split
        · rename_i e he
          rw [he] at hinner
          exact hinner
        · rename_i u rest hrest hu
          rw [hu] at hinner
          have hclose := (accounts_closeParen fin rest).mono hinner
          split
          · rename_i e he
            rw [he] at hclose
            exact hclose
          · rename_i rest' hrest' hclosed
            rw [hclosed] at hclose
            exact hclose
      · exact fun s' ts h => hempty ⟨s', ts, h⟩
  | rightParen | comma =>
    rw [parseOperand] <;> first | exact .token (.unexpected _) hfirst | simp
termination_by 4 * tokens.length
decreasing_by
  all_goals simp only [List.length_cons]; omega

/-- To read arguments takes tokens from the front, or fails at one of them or at the end. -/
theorem accounts_parseArguments (fin : Nat) (tokens : Tokens α) :
    Accounts fin tokens ((parseArguments fin tokens).map fun result => result.2.val) := by
  by_cases hclose : ∃ s ts, tokens = ⟨.rightParen, s⟩ :: ts
  · obtain ⟨s, tokens, rfl⟩ := hclose
    rw [parseArguments]
    exact List.suffix_cons _ _
  · have hseries := accounts_parseSeries fin tokens
    rw [parseArguments]
    · split
      · rename_i e he
        rw [he] at hseries
        exact hseries
      · rename_i us rest hus
        rw [hus] at hseries
        exact hseries
    · exact fun s ts h => hclose ⟨s, ts, h⟩
termination_by 4 * tokens.length + 3

/-- To read a series takes tokens from the front, or fails at one of them or at the end. -/
theorem accounts_parseSeries (fin : Nat) (tokens : Tokens α) :
    Accounts fin tokens ((parseSeries fin tokens).map fun result => result.2.val) := by
  have hargument := accounts_parseExpr fin 0 tokens
  rw [parseSeries]
  split
  · rename_i e he
    rw [he] at hargument
    exact hargument
  · rename_i u s rest hrest hu
    rw [hu] at hargument
    have hargument : ⟨.comma, s⟩ :: rest <:+ tokens := hargument
    have hlength : rest.length < tokens.length := Nat.lt_of_succ_lt hrest
    have hseries := (accounts_parseSeries fin rest).mono
      ((List.suffix_cons ⟨.comma, s⟩ rest).trans hargument)
    split
    · rename_i e he
      rw [he] at hseries
      exact hseries
    · rename_i us rest' h' hus
      rw [hus] at hseries
      exact hseries
  · rename_i u s rest hrest hu
    rw [hu] at hargument
    have hargument : ⟨.rightParen, s⟩ :: rest <:+ tokens := hargument
    exact (List.suffix_cons ⟨.rightParen, s⟩ rest).trans hargument
  · rename_i u token s rest hrest hcomma hclose hu
    rw [hu] at hargument
    exact .token (.unseparated _) (hargument.subset List.mem_cons_self)
  · exact .unclosedEnd
termination_by 4 * tokens.length + 2

end

end Parser

namespace Expr

open Token

/-- An expression that exceeds the limits does so as a whole. -/
theorem span_of_bounded {u : Expr α} {l : Limits} {t : String} {e : ParseError α}
    (h : u.bounded l t = .error e) : e.span = none := by
  unfold bounded at h
  split at h
  · obtain rfl := Except.error.inj h
    rfl
  · contradiction

/-- A failure to read is reported as what it is. -/
theorem mapError_parse_eq_error_iff {β : Type} {step : Except (ParseError α) β}
    {e : ParseError α} : step.mapError Error.parse = .error (.parse e) ↔ step = .error e := by
  cases step <;> simp [Except.mapError]

variable [Scalar α] {start : Nat} {cs : List Char} {fault : SyntaxFault α} {s : Span}

/-- The lexer fails with what it made of a lexeme. -/
theorem concerns_of_isSpelled {piece : List Char} (h : IsSpelled piece (.error fault)) :
    fault.Concerns (.error fault) := by
  cases h with
  | invalidNumber => exact .invalidNumber _
  | unexpectedCharacter => exact .unexpectedCharacter _

/-- Where a text can fail whose first character stands at the byte `start`: at a lexeme, at the end
of the text, or in front of its end because it has no lexemes. -/
inductive FailsAt (start : Nat) (cs : List Char) : SyntaxFault α → Span → Prop
  | lexeme {fault : SyntaxFault α} {r : Except (SyntaxFault α) (Token α)} {s : Span}
      (hfault : fault.Concerns r) (h : IsTaken start cs r s) : FailsAt start cs fault s
  | ending {fault : SyntaxFault α} (hfault : ∀ r, ¬fault.Concerns r) :
      FailsAt start cs fault (.single (start + byteLength cs))
  | empty (h : ∀ c ∈ cs, isSeparator c = true) :
      FailsAt start cs .emptyExpression (.single (start + byteLength cs - 1))

/-- What is blamed on the tokens of a text is a failure at a place of the text. -/
theorem failsAt_of_blames {tokens : Parser.Tokens α} {e : Placed (SyntaxFault α)}
    (hlex : lex start cs = .ok tokens) (h : Parser.Blames (start + byteLength cs) tokens e) :
    FailsAt start cs e.item e.span := by
  cases h with
  | token hfault hmem => exact .lexeme hfault (isTaken_of_lex hlex _ hmem)
  | unexpectedEnd => exact .ending nofun
  | unclosedEnd => exact .ending nofun

/-- The parser fails at a place of the text. -/
theorem failsAt_of_parseAll {tokens : Parser.Tokens α} {e : Placed (SyntaxFault α)}
    (hlex : lex start cs = .ok tokens)
    (h : Parser.parseAll (start + byteLength cs) tokens = .error e) :
    FailsAt start cs e.item e.span := by
  have haccounts := Parser.accounts_parseExpr (start + byteLength cs) 0 tokens
  unfold Parser.parseAll at h
  split_ifs at h with hempty
  · obtain rfl := List.isEmpty_iff.mp hempty
    obtain rfl := Except.error.inj h
    exact .empty (isSeparator_of_lex_eq_nil hlex)
  · split at h
    · rename_i e' he'
      obtain rfl := Except.error.inj h
      rw [he'] at haccounts
      exact failsAt_of_blames hlex haccounts
    · contradiction
    · rename_i u token s rest hrest hu
      obtain rfl := Except.error.inj h
      rw [hu] at haccounts
      have hmem : ⟨token, s⟩ ∈ tokens := List.IsSuffix.subset haccounts List.mem_cons_self
      exact failsAt_of_blames hlex (.token (.unexpected token) hmem)

/-- To read a text fails at a place of the text. -/
theorem failsAt_of_read {e : Placed (SyntaxFault α)} (h : read start cs = .error e) :
    FailsAt start cs e.item e.span := by
  unfold read at h
  split at h
  · rename_i e' he'
    obtain rfl := Except.error.inj h
    have htaken := isTaken_of_lex_eq_error he'
    obtain ⟨_, _, _, -, -, hspelled, -⟩ := htaken.exists_piece
    exact .lexeme (concerns_of_isSpelled hspelled) htaken
  · rename_i tokens htokens
    exact failsAt_of_parseAll htokens h

/-- A piece of a text fails inside it, at the byte behind it or at the one in front of it. -/
theorem FailsAt.bounds (h : FailsAt start cs fault s) :
    start - 1 ≤ s.start ∧ s.start ≤ start + byteLength cs := by
  cases h with
  | lexeme _ h =>
    obtain ⟨before, c, more, after, rfl, -, rfl⟩ := h
    simp only [byteLength_append]
    omega
  | ending | empty =>
    simp only [Span.single]
    omega

/-- What can be told from the place of a failure in the text `t`: it has at least one byte, begins
between two characters, ends between two characters or one byte behind the text, and a lexeme that
the failure is about stands at exactly these bytes. -/
structure PointsInto (t : String) (fault : SyntaxFault α) (s : Span) : Prop where
  start_lt_stop : s.start < s.stop
  stop_le : s.stop ≤ t.utf8ByteSize + 1
  start_isValid : String.Pos.Raw.IsValid t ⟨s.start⟩
  stop_isValid : s.stop ≤ t.utf8ByteSize → String.Pos.Raw.IsValid t ⟨s.stop⟩
  lexeme : ∀ r, fault.Concerns r → IsTaken 0 t.toList r s ∧ IsSpelled (s.slice t).toList r

variable {t : String} {before after : List Char}

/-- A place in front of a character of one byte, or at the end of the text, is a place in the
text. -/
theorem pointsInto_single (htext : t.toList = before ++ after)
    (hafter : ∀ c ∈ after.head?, c.utf8Size = 1) (hfault : ∀ r, ¬fault.Concerns r) :
    PointsInto t fault (.single (byteLength before)) := by
  have hlength := congrArg byteLength htext
  rw [byteLength_toList, byteLength_append] at hlength
  refine ⟨Nat.lt_succ_self _, ?_, isValid_of_append htext, ?_, fun r hr => absurd hr (hfault r)⟩
  · simp only [Span.single]
    omega
  · intro hstop
    cases after with
    | nil =>
      simp only [Span.single, byteLength_nil] at hstop hlength
      omega
    | cons c after =>
      have hshifted : t.toList = (before ++ [c]) ++ after := by simp [htext]
      simpa [Span.single, hafter c rfl] using isValid_of_append hshifted

/-- The place of a lexeme is a place in the text. -/
theorem pointsInto_of_isTaken {r : Except (SyntaxFault α) (Token α)} (hfault : fault.Concerns r)
    (h : IsTaken 0 t.toList r s) : PointsInto t fault s := by
  obtain ⟨before, piece, after, htext, hne, hspelled, hs⟩ := h.exists_piece
  have htail : t.toList = (before ++ piece) ++ after := by rw [htext, List.append_assoc]
  have hpos := byteLength_pos hne
  have hlength := congrArg byteLength htail
  rw [byteLength_toList, byteLength_append, byteLength_append] at hlength
  rw [Nat.zero_add] at hs
  have hslice : s.slice t = String.ofList piece := by rw [hs, Span.slice_of_append htext]
  subst hs
  refine ⟨?_, ?_, isValid_of_append htext, fun _ => ?_, fun r' hr' => ?_⟩
  · dsimp only
    omega
  · dsimp only
    omega
  · simpa using isValid_of_append htail
  · rw [hr'.unique hfault, hslice, String.toList_ofList]
    exact ⟨h, hspelled⟩

/-- A blank takes one byte. -/
theorem utf8Size_of_isSeparator {c : Char} (h : isSeparator c = true) : c.utf8Size = 1 := by
  simp only [isSeparator_iff, List.mem_cons, List.not_mem_nil, or_false] at h
  rcases h with rfl | rfl | rfl | rfl <;> rfl

/-- A piece of a text that is cut out at equal signs. -/
structure IsSide (t : String) (before cs after : List Char) : Prop where
  text : t.toList = before ++ (cs ++ after)
  front : ∀ c ∈ before.getLast?, c = '='
  behind : ∀ c ∈ after.head?, c = '='

/-- The places where the sides of an equation fail are places of the whole text. -/
theorem IsSide.pointsInto (h : IsSide t before cs after)
    (hfails : FailsAt (byteLength before) cs fault s) : PointsInto t fault s := by
  have hbehind : ∀ c ∈ after.head?, c.utf8Size = 1 := by
    intro c hc
    rw [h.behind c hc]
    rfl
  cases hfails with
  | @lexeme _ r _ hfault htaken =>
    have hall : IsTaken (byteLength before) (cs ++ after) r s := by
      cases hafter : after with
      | nil => rwa [List.append_nil]
      | cons c rest =>
        obtain rfl := h.behind c (by simp [hafter])
        exact htaken.append_stopper isStopper_equalSign
    refine pointsInto_of_isTaken hfault ?_
    rw [h.text]
    exact IsTaken.behind (by rwa [Nat.zero_add])
  | ending hfault =>
    rw [← byteLength_append]
    exact pointsInto_single (by rw [h.text, List.append_assoc]) hbehind hfault
  | empty hcs =>
    -- The character in front of the end is a separator or, if the piece is empty, an equal sign.
    have hlast : ∀ d ∈ (before ++ cs).getLast?, d.utf8Size = 1 := by
      intro d hd
      rw [List.getLast?_append, Option.mem_def, Option.or_eq_some_iff] at hd
      rcases hd with hd | ⟨-, hd⟩
      · exact utf8Size_of_isSeparator (hcs d (List.mem_of_getLast? hd))
      · rw [h.front d hd]
        rfl
    have htext : t.toList = (before ++ cs) ++ after := by rw [h.text, List.append_assoc]
    rw [← byteLength_append]
    rcases List.eq_nil_or_concat' (before ++ cs) with hnil | ⟨front, d, hconcat⟩
    · rw [hnil] at htext ⊢
      exact pointsInto_single htext hbehind nofun
    · rw [hconcat] at hlast htext ⊢
      have hd : d.utf8Size = 1 := hlast d (by simp)
      simp only [byteLength_append, byteLength_cons, byteLength_nil, hd, Nat.add_zero,
        Nat.add_sub_cancel]
      have hshifted : t.toList = front ++ d :: after := by simp [htext]
      exact pointsInto_single hshifted (by simp [hd]) nofun

/-- A text is a side of itself. -/
theorem isSide_whole (t : String) : IsSide t [] t.toList [] :=
  ⟨by simp, by simp, by simp⟩

variable {left right : List Char}

/-- What stands in front of the equal sign is a side. -/
theorem isSide_left (h : t.toList = left ++ '=' :: right) : IsSide t [] left ('=' :: right) :=
  ⟨h, by simp, by simp⟩

/-- What stands behind the equal sign is a side. -/
theorem isSide_right (h : t.toList = left ++ '=' :: right) :
    IsSide t (left ++ ['=']) right [] :=
  ⟨by simp [h], by simp, by simp⟩

variable {l : Limits} {e : ParseError α}

/-- A side fails at a place of its own, and with the whole text as the input. -/
theorem failsAt_of_parseSide (h : parseSide l t start cs = .error e) (hs : e.span = some s) :
    e.input = t ∧ FailsAt start cs e.fault s := by
  unfold parseSide at h
  split at h
  · rename_i failure hfailure
    obtain rfl := Except.error.inj h
    obtain rfl := Option.some.inj hs
    exact ⟨rfl, failsAt_of_read hfailure⟩
  · rw [span_of_bounded h] at hs
    contradiction

/-- The place where a side fails is a place in the whole text. -/
theorem IsSide.pointsInto_of_parseSide (hside : IsSide t before cs after)
    (h : parseSide l t (byteLength before) cs = .error e) (hs : e.span = some s) :
    e.input = t ∧ PointsInto t e.fault s := by
  obtain ⟨hinput, hfails⟩ := failsAt_of_parseSide h hs
  exact ⟨hinput, hside.pointsInto hfails⟩

/-- An equation that fails at a place fails on its left side, or on its right side if there is
nothing wrong with the left one. -/
theorem parseSide_of_parseEquation (htext : t.toList = left ++ '=' :: right) (hleft : '=' ∉ left)
    (hright : '=' ∉ right) (h : parseEquation l t = .error (.parse e)) (hs : e.span = some s) :
    parseSide l t 0 left = .error e ∨
      (∃ u : Expr α, parseSide l t 0 left = .ok u) ∧
        parseSide l t (byteLength left + 1) right = .error e := by
  rw [parseEquation_of_append htext hleft hright] at h
  rcases bind_eq_error_iff.mp (mapError_parse_eq_error_iff.mp h) with hu | ⟨u, hu, hrest⟩
  · exact .inl hu
  rcases bind_eq_error_iff.mp hrest with hv | ⟨v, -, hwhole⟩
  · exact .inr ⟨⟨u, hu⟩, hv⟩
  · rw [span_of_bounded hwhole] at hs
    contradiction

/-- The places where the text `t` is refused are places in `t`. If it is an equation, it is refused
on one of its sides, and the place is on that side; the equal sign counts to both. -/
theorem pointsInto_of_parse (t : String) :
    (∀ (e : ParseError α) (s : Span), parse t = .error e → e.span = some s →
      e.input = t ∧ PointsInto t e.fault s) ∧
    ∀ (l : Limits) (e : ParseError α) (s : Span),
      parseEquation l t = .error (.parse e) → e.span = some s →
        (e.input = t ∧ PointsInto t e.fault s) ∧
        ∀ left right : List Char, t.toList = left ++ '=' :: right → '=' ∉ left → '=' ∉ right →
          (parseSide l t 0 left = .error e ∧ s.start ≤ byteLength left) ∨
          ((∃ u : Expr α, parseSide l t 0 left = .ok u) ∧
            parseSide l t (byteLength left + 1) right = .error e ∧ byteLength left ≤ s.start) := by
  constructor
  · intro e s h hs
    exact (isSide_whole t).pointsInto_of_parseSide h hs
  intro l e s h hs
  constructor
  · by_cases hblank : ∀ c ∈ t.toList, isBlank c = true
    · rw [parseEquation_of_blank hblank] at h
      obtain rfl := Error.parse.inj (Except.error.inj h)
      contradiction
    rcases equalSign_cases t.toList with hmem | ⟨left, right, htext, hleft, hright⟩ | htwo
    · rw [parseEquation_of_not_mem hblank hmem] at h
      exact (isSide_whole t).pointsInto_of_parseSide (mapError_parse_eq_error_iff.mp h) hs
    · rcases parseSide_of_parseEquation htext hleft hright h hs with h | ⟨-, h⟩
      · exact (isSide_left htext).pointsInto_of_parseSide h hs
      · have h : parseSide l t (byteLength (left ++ ['='])) right = .error e := by
          rwa [byteLength_append]
        exact (isSide_right htext).pointsInto_of_parseSide h hs
    · rw [parseEquation_of_two_le htwo] at h
      exact absurd (Except.error.inj h) nofun
  · intro left right htext hleft hright
    rcases parseSide_of_parseEquation htext hleft hright h hs with h | ⟨hu, h⟩
    · have hbounds := (failsAt_of_parseSide h hs).2.bounds
      exact .inl ⟨h, by omega⟩
    · have hbounds := (failsAt_of_parseSide h hs).2.bounds
      exact .inr ⟨hu, h, by omega⟩

/-- The last character of the right side takes two bytes. -/
theorem pointsInto_of_parse_micro :
    "V = A * µ".toList = "V ".toList ++ '=' :: " A * µ".toList ∧
      ∃ e : ParseError Float, parseEquation {} "V = A * µ" = .error (.parse e) ∧
        e.span = some ⟨8, 10⟩ ∧ PointsInto "V = A * µ" e.fault ⟨8, 10⟩ ∧
        parseSide {} "V = A * µ" 3 " A * µ".toList = .error e := by
  have htext : "V = A * µ".toList = "V ".toList ++ '=' :: " A * µ".toList := by decide
  have hrun : (match (parseEquation {} "V = A * µ" : Except (Error Float) (Expr Float)) with
      | .error (.parse e) => e.span
      | _ => none) = some ⟨8, 10⟩ := by
    decide +kernel
  split at hrun
  · rename_i e he
    obtain ⟨-, hequation⟩ := pointsInto_of_parse (α := Float) "V = A * µ"
    obtain ⟨⟨-, hplace⟩, hside⟩ := hequation {} e ⟨8, 10⟩ he hrun
    rcases hside _ _ htext (by decide) (by decide) with ⟨-, hleft⟩ | ⟨-, hright, -⟩
    · exact absurd hleft (by decide)
    · exact ⟨htext, e, he, hrun, hplace, hright⟩
  · contradiction

end Expr

end ErrorBudget
