import ErrorBudget.Decimal.Literal
import ErrorBudget.Token

/-!
# From characters to tokens

`lex` cuts a text into tokens. Each token is the longest lexeme at its place, and blanks between the
tokens are skipped: spaces, tabs, carriage returns and line feeds. The text fails if it reaches a
character that starts no token, or a number without a digit.
-/

set_option autoImplicit false

namespace ErrorBudget

namespace Token

/-- Whether a character separates tokens. -/
def isSeparator (c : Char) : Bool :=
  c = ' ' || c = '\t' || c = '\r' || c = '\n'

/-- Whether an identifier can start with a character. -/
def isNameStart (c : Char) : Bool :=
  c.isAlpha || c = '_'

/-- Whether an identifier can go on with a character. -/
def isNamePart (c : Char) : Bool :=
  c.isAlphanum || c = '_'

/-- Whether a number can start with a character. -/
def isNumberStart (c : Char) : Bool :=
  c.isDigit || c = '.'

/-- The tokens that are always a single character. -/
def ofSymbol? {α : Type} : Char → Option (Token α)
  | '+' => some (.operator .add)
  | '-' => some (.operator .sub)
  | '/' => some (.operator .div)
  | '^' => some (.operator .pow)
  | '(' => some .leftParen
  | ')' => some .rightParen
  | ',' => some .comma
  | _ => none

/-- The number of a literal, which must have a digit before its exponent. -/
def ofLiteral {α : Type} [Scalar α] (literal : Literal) : Except (SyntaxFault α) (Token α) :=
  match literal.value? with
  | some (m, e) => .ok (.number (Scalar.ofDecimal m e))
  | none => .error (.invalidNumber (String.ofList literal.chars))

/-- The token of a text that starts with `c` and goes on with `cs`, together with the characters
that it takes from `cs`. A failure comes with the characters that it takes likewise. -/
def lexeme {α : Type} [Scalar α] (c : Char) (cs : List Char) :
    Except (SyntaxFault α) (Token α) × List Char :=
  match ofSymbol? c with
  | some token => (.ok token, [])
  | none =>
    if c = '*' then
      match cs with
      | '*' :: _ => (.ok (.operator .pow), ['*'])
      | _ => (.ok (.operator .mul), [])
    else if isNumberStart c then
      let literal := (Literal.scan (c :: cs)).1
      (ofLiteral literal, literal.chars.tail)
    else if isNameStart c then
      let name := cs.takeWhile isNamePart
      (.ok (.identifier (String.ofList (c :: name))), name)
    else (.error (.unexpectedCharacter c), [])

/-- The tokens of a text whose first character stands at the byte `start`, or its first failure. -/
def lex {α : Type} [Scalar α] (start : Nat) :
    List Char → Except (Placed (SyntaxFault α)) (List (Placed (Token α)))
  | [] => .ok []
  | c :: cs =>
    if isSeparator c then lex (start + c.utf8Size) cs
    else
      let (result, more) := lexeme c cs
      let stop := start + byteLength (c :: more)
      match result with
      | .error fault => .error ⟨fault, ⟨start, stop⟩⟩
      | .ok token =>
        match lex stop (cs.drop more.length) with
        | .error failure => .error failure
        | .ok tokens => .ok (⟨token, ⟨start, stop⟩⟩ :: tokens)
termination_by cs => cs.length
decreasing_by
  · simp
  · simp only [List.length_drop, List.length_cons]
    omega

/-- A token takes its characters from the front of the text. -/
theorem lexeme_isPrefix {α : Type} [Scalar α] (c : Char) (cs : List Char) :
    (lexeme c cs : Except (SyntaxFault α) (Token α) × List Char).2 <+: cs := by
  have number : (Literal.scan (c :: cs)).1.chars.tail <+: cs := by
    have h := Literal.scan_append (c :: cs)
    cases hchars : (Literal.scan (c :: cs)).1.chars with
    | nil => simp
    | cons d ds =>
      rw [hchars, List.cons_append, List.cons.injEq] at h
      exact ⟨_, h.2⟩
  unfold lexeme
  repeat' split
  all_goals simp [number, List.takeWhile_prefix]

end Token

end ErrorBudget
