import ErrorBudget.Error
import ErrorBudget.Limits
import ErrorBudget.Expr.Parser
import ErrorBudget.Text.Blank

/-!
# Reading expressions and equations

`Expr.parse` reads an expression, `Expr.parseEquation` an equation. An equation is kept as an
expression that has to be zero: a text with one equal sign becomes the difference of its sides,
and a text without one stands for itself. What has been read must keep within the limits, each
side as well as the whole.
-/

set_option autoImplicit false

namespace ErrorBudget

namespace Expr

variable {α : Type}

/-- What is wrong with an expression that exceeds the limits; its depth is looked at first. -/
def excess? (limits : Limits) (e : Expr α) : Option (SyntaxFault α) :=
  if limits.depth < e.depth then some (.tooDeep limits.depth)
  else if limits.size < e.size then some (.tooLarge limits.size)
  else none

/-- An expression that keeps within the limits. -/
def bounded (limits : Limits) (input : String) (e : Expr α) : Except (ParseError α) (Expr α) :=
  match e.excess? limits with
  | some fault => .error ⟨input, fault, none⟩
  | none => .ok e

variable [Scalar α]

/-- Reads a piece of a text that starts at a byte of it, without regard to limits. -/
def read (start : Nat) (cs : List Char) : Except (Placed (SyntaxFault α)) (Expr α) :=
  match Token.lex start cs with
  | .error e => .error e
  | .ok tokens => Parser.parseAll (start + byteLength cs) tokens

/-- Reads a piece of the text `input` that starts at a byte of it. -/
def parseSide (limits : Limits) (input : String) (start : Nat) (cs : List Char) :
    Except (ParseError α) (Expr α) :=
  match read start cs with
  | .error e => .error ⟨input, e.item, some e.span⟩
  | .ok e => e.bounded limits input

/-- Reads an expression, within the default limits. -/
def parse (input : String) : Except (ParseError α) (Expr α) :=
  parseSide {} input 0 input.toList

/-- Reads an equation as an expression that has to be zero. -/
def parseEquation (limits : Limits) (input : String) : Except (Error α) (Expr α) :=
  let cs := input.toList
  if trimBlanks cs = [] then .error (.parse ⟨input, .emptyEquation, none⟩)
  else
    match splitFirst? (· == '=') cs with
    | none => (parseSide limits input 0 cs).mapError .parse
    | some (left, right) =>
      if right.contains '=' then .error (.malformed input (cs.count '='))
      else
        Except.mapError .parse do
          let u ← parseSide limits input 0 left
          let v ← parseSide limits input (byteLength left + 1) right
          bounded limits input (.sub u v)

end Expr

end ErrorBudget
