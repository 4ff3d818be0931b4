import ErrorBudget.Expr.Derivative
import ErrorBudget.Token.Lexer

/-!
# From tokens to expressions

A parser by precedence. `parseExpr` reads an operand and then, as long as the next operator binds at
least as strongly as asked for, that operator and its right operand. A sign in front of an operand
binds stronger than products and weaker than powers, so `-x**2` is the negative of a square.

Each function returns the tokens that it leaves, together with a proof that it has consumed at least
one: this is why the parser ends.
-/

set_option autoImplicit false

namespace ErrorBudget

namespace Parser

variable {α : Type}

/-- Tokens with their places. -/
abbrev Tokens (α : Type) : Type := List (Placed (Token α))

/-- A result, with the tokens behind what was read. -/
abbrev Shorter (β : Type) (tokens : Tokens α) : Type :=
  β × { rest : Tokens α // rest.length < tokens.length }

/-- A result or the first failure, with its place. -/
abbrev Outcome (β α : Type) : Type := Except (Placed (SyntaxFault α)) β

/-- The precedence of a sign in front of an operand. -/
def signPrecedence : Nat := 25

/-- The expression that an operator makes of its operands. -/
def combine : Operator → Expr α → Expr α → Expr α
  | .add => .add
  | .sub => .sub
  | .mul => .mul
  | .div => .div
  | .pow => .pow

/-- An identifier that is not called: a constant if it names one, a variable otherwise. -/
def nameExpr (name : String) : Expr α :=
  match Constant.ofName? name with
  | some c => .constant c
  | none => .symbol name

/-- A call with its arguments, which must be exactly one. -/
def callExpr (f : Func) (name : Placed String) : List (Expr α) → Outcome (Expr α) α
  | [u] => .ok (.call f u)
  | us => .error ⟨.wrongArity name.item Func.arity us.length, name.span⟩

/-- The tokens behind a closing parenthesis, which must come first; `fin` is where the text ends. -/
def closeParen (fin : Nat) : (tokens : Tokens α) →
    Outcome { rest : Tokens α // rest.length < tokens.length } α
  | ⟨.rightParen, _⟩ :: rest => .ok ⟨rest, by simp⟩
  | ⟨token, span⟩ :: _ => .error ⟨.unclosed token, span⟩
  | [] => .error ⟨.unclosedEnd, .single fin⟩

variable [Scalar α]

mutual

/-- Reads an expression whose operators bind at least as strongly as `least`. -/
def parseExpr (fin least : Nat) (tokens : Tokens α) : Outcome (Shorter (Expr α) tokens) α :=
  match parseOperand fin tokens with
  | .error e => .error e
  | .ok (left, ⟨rest, h⟩) =>
    match climb fin least left rest with
    | .error e => .error e
    | .ok (u, ⟨rest', h'⟩) => .ok (u, ⟨rest', by omega⟩)
termination_by 4 * tokens.length + 1

/-- Goes on after the operand `left` for as long as an operator follows that binds at least as
strongly as `least`. -/
def climb (fin least : Nat) (left : Expr α) (tokens : Tokens α) :
    Outcome (Expr α × { rest : Tokens α // rest.length ≤ tokens.length }) α :=
  match tokens with
  | ⟨.operator op, _⟩ :: rest =>
    if op.precedence < least then .ok (left, ⟨⟨.operator op, _⟩ :: rest, Nat.le_refl _⟩)
    else
      match parseExpr fin op.rightPrecedence rest with
      | .error e => .error e
      | .ok (right, ⟨rest', h⟩) =>
        match climb fin least (combine op left right) rest' with
        | .error e => .error e
        | .ok (u, ⟨rest'', h'⟩) => .ok (u, ⟨rest'', by simp only [List.length_cons]; omega⟩)
  | tokens => .ok (left, ⟨tokens, Nat.le_refl _⟩)
termination_by 4 * tokens.length
decreasing_by
  all_goals simp only [List.length_cons]; omega

/-- Reads an operand: a number, a name, a call, an operand with a sign, or an expression in
parentheses. -/
def parseOperand (fin : Nat) (tokens : Tokens α) : Outcome (Shorter (Expr α) tokens) α :=
  match tokens with
  | [] => .error ⟨.unexpectedEnd, .single fin⟩
  | ⟨.number x, _⟩ :: rest => .ok (.number x, ⟨rest, by simp⟩)
  | ⟨.identifier name, span⟩ :: ⟨.leftParen, _⟩ :: rest =>
    match Func.ofName? name with
    | none => .error ⟨.unknownFunction name, span⟩
    | some f =>
      match parseArguments fin rest with
      | .error e => .error e
      | .ok (us, ⟨rest', h⟩) =>
        match callExpr f ⟨name, span⟩ us with
        | .error e => .error e
        | .ok u => .ok (u, ⟨rest', by simp only [List.length_cons]; omega⟩)
  | ⟨.identifier name, _⟩ :: rest => .ok (nameExpr name, ⟨rest, by simp⟩)
  | ⟨.operator .sub, _⟩ :: rest =>
    match parseExpr fin signPrecedence rest with
    | .error e => .error e
    | .ok (u, ⟨rest', h⟩) => .ok (u.negate, ⟨rest', by simp only [List.length_cons]; omega⟩)
  | ⟨.operator .add, _⟩ :: rest =>
    match parseExpr fin signPrecedence rest with
    | .error e => .error e
    | .ok (u, ⟨rest', h⟩) => .ok (u, ⟨rest', by simp only [List.length_cons]; omega⟩)
  | ⟨.leftParen, _⟩ :: ⟨.rightParen, span⟩ :: _ => .error ⟨.emptyParentheses, span⟩
  | ⟨.leftParen, _⟩ :: rest =>
    match parseExpr fin 0 rest with
    | .error e => .error e
    | .ok (u, ⟨rest', h⟩) =>
      match closeParen fin rest' with
      | .error e => .error e
      | .ok ⟨rest'', h'⟩ => .ok (u, ⟨rest'', by simp only [List.length_cons]; omega⟩)
  | ⟨token, span⟩ :: _ => .error ⟨.unexpected token, span⟩
termination_by 4 * tokens.length
decreasing_by
  all_goals simp only [List.length_cons]; omega

/-- Reads the arguments of a call and the closing parenthesis; there may be no argument. -/
def parseArguments (fin : Nat) (tokens : Tokens α) :
    Outcome (Shorter (List (Expr α)) tokens) α :=
  match tokens with
  | ⟨.rightParen, _⟩ :: rest => .ok ([], ⟨rest, by simp⟩)
  | tokens =>
    match parseSeries fin tokens with
    | .error e => .error e
    | .ok (us, rest) => .ok (us, rest)
termination_by 4 * tokens.length + 3

/-- Reads one or more expressions with commas between them, and the closing parenthesis. -/
def parseSeries (fin : Nat) (tokens : Tokens α) : Outcome (Shorter (List (Expr α)) tokens) α :=
  match parseExpr fin 0 tokens with
  | .error e => .error e
  | .ok (u, ⟨⟨.comma, _⟩ :: rest, h⟩) =>
    match parseSeries fin rest with
    | .error e => .error e
    | .ok (us, ⟨rest', h'⟩) =>
      .ok (u :: us, ⟨rest', by simp only [List.length_cons] at h; omega⟩)
  | .ok (u, ⟨⟨.rightParen, _⟩ :: rest, h⟩) =>
    .ok ([u], ⟨rest, by simp only [List.length_cons] at h; omega⟩)
  | .ok (_, ⟨⟨token, span⟩ :: _, _⟩) => .error ⟨.unseparated token, span⟩
  | .ok (_, ⟨[], _⟩) => .error ⟨.unclosedEnd, .single fin⟩
termination_by 4 * tokens.length + 2
decreasing_by
  · omega
  · simp only [List.length_cons] at h
    omega

end

/-- Reads all tokens as one expression; `fin` is where the text ends. -/
def parseAll (fin : Nat) (tokens : Tokens α) : Outcome (Expr α) α :=
  if tokens.isEmpty then .error ⟨.emptyExpression, .single (fin - 1)⟩
  else
    match parseExpr fin 0 tokens with
    | .error e => .error e
    | .ok (u, ⟨[], _⟩) => .ok u
    | .ok (_, ⟨⟨token, span⟩ :: _, _⟩) => .error ⟨.unexpected token, span⟩

end Parser

end ErrorBudget
