import ErrorBudget.Expr.Parser

/-!
# Nested calls of the parser

The functions of the parser call each other, and nothing in the way they do so says that this comes
to an end. Here they are written with a bound on the number of calls that may be open inside each
other, and without the bounds on tokens: beyond that number there is no outcome at all. Every call
takes a token off before it hands the others on, or hands them to a function that does, so a little
more than twice the number of tokens is enough for all calls, whatever the tokens are
(`Parser.parseExprWithin_eq`).
-/

set_option autoImplicit false

namespace ErrorBudget

namespace Parser

variable {α : Type}

/-- An outcome, unless too many calls are open inside each other. -/
abbrev Bounded (α : Type) : Type → Type := ExceptT (Placed (SyntaxFault α)) Option

namespace Bounded

variable {β : Type}

/-- Too many calls are open. -/
def exhausted : Bounded α β := ExceptT.mk none

/-- A step that ends. -/
def ended (r : Outcome β α) : Bounded α β := ExceptT.mk (some r)

end Bounded

open Bounded

variable [Scalar α]

mutual

/-- `parseExpr`, with at most `calls` calls inside each other. -/
def parseExprWithin (fin : Nat) : Nat → Nat → Tokens α → Bounded α (Expr α × Tokens α)
  | 0, _, _ => exhausted
  | calls + 1, least, tokens => do
    let (left, rest) ← parseOperandWithin fin calls tokens
    climbWithin fin calls least left rest

/-- `climb`, with at most `calls` calls inside each other. -/
def climbWithin (fin : Nat) : Nat → Nat → Expr α → Tokens α → Bounded α (Expr α × Tokens α)
  | 0, _, _, _ => exhausted
  | calls + 1, least, left, ⟨.operator op, s⟩ :: rest =>
    if op.precedence < least then return (left, ⟨.operator op, s⟩ :: rest)
    else do
      let (right, rest') ← parseExprWithin fin calls op.rightPrecedence rest
      climbWithin fin calls least (combine op left right) rest'
  | _ + 1, _, left, tokens => return (left, tokens)

/-- `parseOperand`, with at most `calls` calls inside each other. -/
def parseOperandWithin (fin : Nat) : Nat → Tokens α → Bounded α (Expr α × Tokens α)
  | 0, _ => exhausted
  | _ + 1, [] => throw ⟨.unexpectedEnd, .single fin⟩
  | _ + 1, ⟨.number x, _⟩ :: rest => return (.number x, rest)
  | calls + 1, ⟨.identifier name, span⟩ :: ⟨.leftParen, _⟩ :: rest =>
    match Func.ofName? name with
    | none => throw ⟨.unknownFunction name, span⟩
    | some f => do
      let (us, rest') ← parseArgumentsWithin fin calls rest
      let u ← ended (callExpr f ⟨name, span⟩ us)
      return (u, rest')
  | _ + 1, ⟨.identifier name, _⟩ :: rest => return (nameExpr name, rest)
  | calls + 1, ⟨.operator .sub, _⟩ :: rest => do
    let (u, rest') ← parseExprWithin fin calls signPrecedence rest
    return (u.negate, rest')
  | calls + 1, ⟨.operator .add, _⟩ :: rest => parseExprWithin fin calls signPrecedence rest
  | _ + 1, ⟨.leftParen, _⟩ :: ⟨.rightParen, span⟩ :: _ => throw ⟨.emptyParentheses, span⟩
  | calls + 1, ⟨.leftParen, _⟩ :: rest => do
    let (u, rest') ← parseExprWithin fin calls 0 rest
    let ⟨rest'', _⟩ ← ended (closeParen fin rest')
    return (u, rest'')
  | _ + 1, ⟨token, span⟩ :: _ => throw ⟨.unexpected token, span⟩

/-- `parseArguments`, with at most `calls` calls inside each other. -/
def parseArgumentsWithin (fin : Nat) : Nat → Tokens α → Bounded α (List (Expr α) × Tokens α)
  | 0, _ => exhausted
  | _ + 1, ⟨.rightParen, _⟩ :: rest => return ([], rest)
  | calls + 1, tokens => parseSeriesWithin fin calls tokens

/-- `parseSeries`, with at most `calls` calls inside each other. -/
def parseSeriesWithin (fin : Nat) : Nat → Tokens α → Bounded α (List (Expr α) × Tokens α)
  | 0, _ => exhausted
  | calls + 1, tokens => do
    let (u, rest) ← parseExprWithin fin calls 0 tokens
    match rest with
    | ⟨.comma, _⟩ :: rest =>
      let (us, rest') ← parseSeriesWithin fin calls rest
      return (u :: us, rest')
    | ⟨.rightParen, _⟩ :: rest => return ([u], rest)
    | ⟨token, span⟩ :: _ => throw ⟨.unseparated token, span⟩
    | [] => throw ⟨.unclosedEnd, .single fin⟩

end

/-- A result without the bound on the tokens that are left. -/
def plain {β : Type} {p : Tokens α → Prop} (r : Outcome (β × { rest : Tokens α // p rest }) α) :
    Outcome (β × Tokens α) α :=
  r.map fun result => (result.1, result.2.val)

mutual

/-- To read an expression takes at most two calls inside each other for each token, and two more. -/
theorem parseExprWithin_eq (fin : Nat) {calls : Nat} (least : Nat) {tokens : Tokens α}
    (h : 2 * tokens.length + 2 ≤ calls) :
    parseExprWithin fin calls least tokens = ended (plain (parseExpr fin least tokens)) := by
  obtain ⟨calls, rfl⟩ := Nat.exists_eq_add_one_of_ne_zero (show calls ≠ 0 by omega)
  have hoperand : 2 * tokens.length + 1 ≤ calls := by omega
  rw [parseExprWithin, parseOperandWithin_eq fin hoperand, parseExpr]
  cases parseOperand fin tokens with
  | error e => rfl
  | ok operand =>
    obtain ⟨left, rest, hrest⟩ := operand
    show climbWithin fin calls least left rest = _
    rw [climbWithin_eq fin least left (by omega)]
    dsimp only
    cases climb fin least left rest with
    | error e => rfl
    | ok result => rfl
termination_by calls

/-- To go on behind an operand takes at most two calls inside each other for each token, and one
more. -/
theorem climbWithin_eq (fin : Nat) {calls : Nat} (least : Nat) (left : Expr α) {tokens : Tokens α}
    (h : 2 * tokens.length + 1 ≤ calls) :
    climbWithin fin calls least left tokens = ended (plain (climb fin least left tokens)) := by
  obtain ⟨calls, rfl⟩ := Nat.exists_eq_add_one_of_ne_zero (show calls ≠ 0 by omega)
  rcases tokens with _ | ⟨⟨token, s⟩, tokens⟩
  · rw [climbWithin, climb]
    · rfl
    · simp
    · simp
  · rw [List.length_cons] at h
    cases token with
    | operator op =>
      rw [climbWithin, climb]
      split
      · rfl
      · rw [parseExprWithin_eq fin op.rightPrecedence (by omega : 2 * tokens.length + 2 ≤ calls)]
        cases parseExpr fin op.rightPrecedence tokens with
        | error e => rfl
        | ok operand =>
          obtain ⟨right, rest, hrest⟩ := operand
          show climbWithin fin calls least (combine op left right) rest = _
          rw [climbWithin_eq fin least (combine op left right) (by omega)]
          dsimp only
          cases climb fin least (combine op left right) rest with
          | error e => rfl
          | ok result => rfl
    | _ =>
      rw [climbWithin, climb]
      · rfl
      · simp
      · simp
termination_by calls

/-- To read an operand takes at most two calls inside each other for each token, and one more. -/
theorem parseOperandWithin_eq (fin : Nat) {calls : Nat} {tokens : Tokens α}
    (h : 2 * tokens.length + 1 ≤ calls) :
    parseOperandWithin fin calls tokens = ended (plain (parseOperand fin tokens)) := by
  obtain ⟨calls, rfl⟩ := Nat.exists_eq_add_one_of_ne_zero (show calls ≠ 0 by omega)
  -- Each call takes a token off before the next one, so the count of calls decreases along.
  rcases tokens with _ | ⟨⟨token, s⟩, tokens⟩
  · rw [parseOperandWithin, parseOperand]
    rfl
  rw [List.length_cons] at h
  cases token with
  | number x =>
    rw [parseOperandWithin, parseOperand]
    rfl
  | identifier name =>
    by_cases hopen : ∃ s' ts, tokens = ⟨.leftParen, s'⟩ :: ts
    · obtain ⟨s', tokens, rfl⟩ := hopen
      rw [List.length_cons] at h
      rw [parseOperandWithin, parseOperand]
      cases Func.ofName? name with
      | none => rfl
      | some f =>
        dsimp only
        rw [parseArgumentsWithin_eq fin (by omega : 2 * tokens.length + 4 ≤ calls)]
        cases parseArguments fin tokens with
        | error e => rfl
        | ok result =>
          obtain ⟨us, rest, hrest⟩ := result
          show ended (callExpr f ⟨name, s⟩ us) >>= _ = _
          dsimp only
          cases callExpr f ⟨name, s⟩ us with
          | error e => rfl
          | ok u => rfl
    · have hclosed : ∀ s' ts, tokens ≠ ⟨.leftParen, s'⟩ :: ts := fun s' ts h => hopen ⟨s', ts, h⟩
      rw [parseOperandWithin, parseOperand]
      · rfl
      · exact hclosed
      · exact hclosed
  | operator op =>
    cases op with
    | sub =>
      rw [parseOperandWithin, parseOperand, parseExprWithin_eq fin signPrecedence (by omega)]
      cases parseExpr fin signPrecedence tokens with
      | error e => rfl
      | ok result => rfl
    | add =>
      rw [parseOperandWithin, parseOperand, parseExprWithin_eq fin signPrecedence (by omega)]
      cases parseExpr fin signPrecedence tokens with
      | error e => rfl
      | ok result => rfl
    | mul | div | pow =>
      rw [parseOperandWithin, parseOperand]
      · rfl
      all_goals simp
  | leftParen =>
    by_cases hempty : ∃ s' ts, tokens = ⟨.rightParen, s'⟩ :: ts
    · obtain ⟨s', tokens, rfl⟩ := hempty
      rw [parseOperandWithin, parseOperand]
      rfl
    · have hfilled : ∀ s' ts, tokens ≠ ⟨.rightParen, s'⟩ :: ts := fun s' ts h => hempty ⟨s', ts, h⟩
      rw [parseOperandWithin, parseOperand, parseExprWithin_eq fin 0 (by omega)]
      · cases parseExpr fin 0 tokens with
        | error e => rfl
        | ok result =>
          obtain ⟨u, rest, hrest⟩ := result
          show ended (closeParen fin rest) >>= _ = _
          dsimp only
          cases closeParen fin rest with
          | error e => rfl
          | ok behind => rfl
      · exact hfilled
      · exact hfilled
  | rightParen | comma =>
    rw [parseOperandWithin, parseOperand]
    · rfl
    all_goals simp
termination_by calls

/-- To read arguments takes at most two calls inside each other for each token, and four more. -/
theorem parseArgumentsWithin_eq (fin : Nat) {calls : Nat} {tokens : Tokens α}
    (h : 2 * tokens.length + 4 ≤ calls) :
    parseArgumentsWithin fin calls tokens = ended (plain (parseArguments fin tokens)) := by
  obtain ⟨calls, rfl⟩ := Nat.exists_eq_add_one_of_ne_zero (show calls ≠ 0 by omega)
  by_cases hclose : ∃ s ts, tokens = ⟨.rightParen, s⟩ :: ts
  · obtain ⟨s, tokens, rfl⟩ := hclose
    rw [parseArgumentsWithin, parseArguments]
    rfl
  · have hfilled : ∀ s ts, tokens ≠ ⟨.rightParen, s⟩ :: ts := fun s ts h => hclose ⟨s, ts, h⟩
    rw [parseArgumentsWithin, parseArguments, parseSeriesWithin_eq fin (by omega)]
    · cases parseSeries fin tokens with
      | error e => rfl
      | ok result => rfl
    · exact hfilled
    · exact hfilled
termination_by calls

/-- To read a series takes at most two calls inside each other for each token, and three more. -/
theorem parseSeriesWithin_eq (fin : Nat) {calls : Nat} {tokens : Tokens α}
    (h : 2 * tokens.length + 3 ≤ calls) :
    parseSeriesWithin fin calls tokens = ended (plain (parseSeries fin tokens)) := by
  obtain ⟨calls, rfl⟩ := Nat.exists_eq_add_one_of_ne_zero (show calls ≠ 0 by omega)
  rw [parseSeriesWithin, parseSeries,
    parseExprWithin_eq fin 0 (by omega : 2 * tokens.length + 2 ≤ calls)]
  cases parseExpr fin 0 tokens with
  | error e => rfl
  | ok result =>
    obtain ⟨u, rest, hrest⟩ := result
    rcases rest with _ | ⟨⟨token, s⟩, rest⟩
    · rfl
    · cases token with
      | comma =>
        rw [List.length_cons] at hrest
        show parseSeriesWithin fin calls rest >>= _ = _
        rw [parseSeriesWithin_eq fin (by omega)]
        dsimp only
        cases parseSeries fin rest with
        | error e => rfl
        | ok series => rfl
      | _ => rfl
termination_by calls

end

end Parser

end ErrorBudget
