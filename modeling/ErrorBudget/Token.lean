import ErrorBudget.Scalar
import ErrorBudget.Text.Span

/-!
# Tokens

The words of an expression: numbers, identifiers, operators, parentheses and commas.
-/

set_option autoImplicit false

namespace ErrorBudget

/-- An operator that stands between two operands. -/
inductive Operator where
  | add
  | sub
  | mul
  | div
  | pow
  deriving DecidableEq, Repr

namespace Operator

/-- How strongly an operator binds its operands. -/
def precedence : Operator → Nat
  | add | sub => 10
  | mul | div => 20
  | pow => 30

/-- The least precedence allowed in the right operand: powers group to the right, all others to the
left. -/
def rightPrecedence : Operator → Nat
  | pow => pow.precedence
  | op => op.precedence + 1

/-- The text of an operator. -/
def symbol : Operator → String
  | add => "+"
  | sub => "-"
  | mul => "*"
  | div => "/"
  | pow => "**"

end Operator

/-- A token. -/
inductive Token (α : Type) where
  | number (x : α)
  | identifier (name : String)
  | operator (op : Operator)
  | leftParen
  | rightParen
  | comma
  deriving Repr

/-- A token as messages quote it. -/
def Token.text {α : Type} [Numeral α] : Token α → String
  | .number x => Numeral.plain x
  | .identifier name => name
  | .operator op => op.symbol
  | .leftParen => "("
  | .rightParen => ")"
  | .comma => ","

/-- Why a text is not an expression. -/
inductive SyntaxFault (α : Type) where
  /-- There is nothing to read. -/
  | emptyExpression
  /-- The equation is blank. -/
  | emptyEquation
  /-- A number has no digit before its exponent. -/
  | invalidNumber (literal : String)
  /-- No token starts with this character. -/
  | unexpectedCharacter (c : Char)
  /-- A token stands where an operand or the end should be. -/
  | unexpected (token : Token α)
  /-- The text ends where an operand should be. -/
  | unexpectedEnd
  /-- A token stands where a parenthesis should close. -/
  | unclosed (token : Token α)
  /-- A token stands where an argument list should go on or close. -/
  | unseparated (token : Token α)
  /-- The text ends before a parenthesis closes. -/
  | unclosedEnd
  /-- Nothing stands between two parentheses. -/
  | emptyParentheses
  /-- No function has this name. -/
  | unknownFunction (name : String)
  /-- A function is called with a wrong number of arguments. -/
  | wrongArity (function : String) (expected found : Nat)
  /-- The expression is nested too deeply. -/
  | tooDeep (limit : Nat)
  /-- The expression has too many nodes. -/
  | tooLarge (limit : Nat)
  /-- A reason of another kind, in words. -/
  | stated (reason : String)

/-- The reason as a text. -/
def SyntaxFault.message {α : Type} [Numeral α] : SyntaxFault α → String
  | .emptyExpression => "empty expression"
  | .emptyEquation => "equation cannot be empty"
  | .invalidNumber literal => s!"invalid number '{literal}'"
  | .unexpectedCharacter c => s!"unexpected character '{c}'"
  | .unexpected token => s!"unexpected '{token.text}'"
  | .unexpectedEnd => "unexpected end of input"
  | .unclosed token => s!"expected ')', but got '{token.text}'"
  | .unseparated token => s!"expected ',' or ')', but got '{token.text}'"
  | .unclosedEnd => "expected ')', but reached end of input"
  | .emptyParentheses => "empty parentheses"
  | .unknownFunction name => s!"unknown function '{name}'"
  | .wrongArity function expected found =>
    s!"function '{function}' takes {expected} argument(s), got {found}"
  | .tooDeep limit => s!"expression nesting depth exceeds maximum limit ({limit})"
  | .tooLarge limit => s!"expression size exceeds maximum node count limit ({limit})"
  | .stated reason => reason

end ErrorBudget
