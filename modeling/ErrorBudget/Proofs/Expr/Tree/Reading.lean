import ErrorBudget.Expr.Reading
import ErrorBudget.Proofs.Expr.Tree.Derivative

/-!
# Reading trees

The parser by precedence with trees as its results. Where an identifier stands in front of an
opening parenthesis, the function of this name is looked up, and the arguments that follow are
counted; then the call is made of the name under which the function was found and of all the
arguments that were read. That the name is one of a function and that there is one argument is what
the parser has checked, not what a tree can express.

The parser of trees and the parser of expressions read the same texts, leave the same tokens and
fail with the same failures, and where one reads a tree the other reads the expression of which it
is the tree (`Tree.parse_eq`, `Tree.parseEquation_eq`).
-/

set_option autoImplicit false

namespace ErrorBudget

namespace Tree

open ErrorBudget.Parser

section Measures

variable {α : Type}

mutual

/-- The number of nodes of a tree. -/
def size : Tree α → Nat
  | number _ | symbol _ | constant _ => 1
  | call _ args => 1 + sizeAll args
  | add u v | sub u v | mul u v | div u v | pow u v => 1 + size u + size v

/-- The number of nodes of some trees together. -/
def sizeAll : List (Tree α) → Nat
  | [] => 0
  | u :: us => size u + sizeAll us

end

mutual

/-- The number of nodes on the longest way from the root to a leaf. -/
def depth : Tree α → Nat
  | number _ | symbol _ | constant _ => 1
  | call _ args => 1 + depthAll args
  | add u v | sub u v | mul u v | div u v | pow u v => 1 + max (depth u) (depth v)

/-- The depth of the deepest of some trees. -/
def depthAll : List (Tree α) → Nat
  | [] => 0
  | u :: us => max (depth u) (depthAll us)

end

/-- A tree that keeps within the limits. -/
def bounded (limits : Limits) (input : String) (t : Tree α) : Except (ParseError α) (Tree α) :=
  if limits.depth < t.depth then .error ⟨input, .tooDeep limits.depth, none⟩
  else if limits.size < t.size then .error ⟨input, .tooLarge limits.size, none⟩
  else .ok t

end Measures

variable {α : Type}

/-- The tree that an operator makes of its operands. -/
def combine : Operator → Tree α → Tree α → Tree α
  | .add => .add
  | .sub => .sub
  | .mul => .mul
  | .div => .div
  | .pow => .pow

/-- An identifier that is not called: a constant if it names one, a variable otherwise. -/
def ofName (name : String) : Tree α :=
  match Constant.ofName? name with
  | some c => .constant c
  | none => .symbol name

/-- The call of a function that was found under a name, if the arguments are as many as it takes. -/
def ofCall (f : Func) (name : Placed String) (us : List (Tree α)) : Outcome (Tree α) α :=
  if us.length = Func.arity then .ok (.call f.name us)
  else .error ⟨.wrongArity name.item Func.arity us.length, name.span⟩

variable [Scalar α]

mutual

/-- Reads a tree whose operators bind at least as strongly as `least`. -/
def parseExpr (fin least : Nat) (tokens : Tokens α) : Outcome (Shorter (Tree α) tokens) α :=
  match parseOperand fin tokens with
  | .error e => .error e
  | .ok (left, ⟨rest, h⟩) =>
    match climb fin least left rest with
    | .error e => .error e
    | .ok (u, ⟨rest', h'⟩) => .ok (u, ⟨rest', by omega⟩)
termination_by 4 * tokens.length + 1

/-- Goes on after the operand `left` for as long as an operator follows that binds at least as
strongly as `least`. -/
def climb (fin least : Nat) (left : Tree α) (tokens : Tokens α) :
    Outcome (Tree α × { rest : Tokens α // rest.length ≤ tokens.length }) α :=
  match tokens with
  | ⟨.operator op, _⟩ :: rest =>
    if op.precedence < least then .ok (left, ⟨⟨.operator op, _⟩ :: rest, Nat.le_refl _⟩)
    else
      match parseExpr fin op.rightPrecedence rest with
      | .error e => .error e
      | .ok (right, ⟨rest', h⟩) =>
        match climb fin least (combine op left right) rest' with
        | .error e => .error e
        | .ok (u, ⟨rest'', h'⟩) => .ok (u, ⟨rest'', by simp only [List.length_cons]; omega⟩)
  | tokens => .ok (left, ⟨tokens, Nat.le_refl _⟩)
termination_by 4 * tokens.length
decreasing_by
  all_goals simp only [List.length_cons]; omega

/-- Reads an operand. An identifier in front of an opening parenthesis is looked up as a function
before its arguments are read. -/
def parseOperand (fin : Nat) (tokens : Tokens α) : Outcome (Shorter (Tree α) tokens) α :=
  match tokens with
  | [] => .error ⟨.unexpectedEnd, .single fin⟩
  | ⟨.number x, _⟩ :: rest => .ok (.number x, ⟨rest, by simp⟩)
  | ⟨.identifier name, span⟩ :: ⟨.leftParen, _⟩ :: rest =>
    match Func.ofName? name with
    | none => .error ⟨.unknownFunction name, span⟩
    | some f =>
      match parseArguments fin rest with
      | .error e => .error e
      | .ok (us, ⟨rest', h⟩) =>
        match ofCall f ⟨name, span⟩ us with
        | .error e => .error e
        | .ok u => .ok (u, ⟨rest', by simp only [List.length_cons]; omega⟩)
  | ⟨.identifier name, _⟩ :: rest => .ok (ofName name, ⟨rest, by simp⟩)
  | ⟨.operator .sub, _⟩ :: rest =>
    match parseExpr fin signPrecedence rest with
    | .error e => .error e
    | .ok (u, ⟨rest', h⟩) => .ok (u.negate, ⟨rest', by simp only [List.length_cons]; omega⟩)
  | ⟨.operator .add, _⟩ :: rest =>
    match parseExpr fin signPrecedence rest with
    | .error e => .error e
    | .ok (u, ⟨rest', h⟩) => .ok (u, ⟨rest', by simp only [List.length_cons]; omega⟩)
  | ⟨.leftParen, _⟩ :: ⟨.rightParen, span⟩ :: _ => .error ⟨.emptyParentheses, span⟩
  | ⟨.leftParen, _⟩ :: rest =>
    match parseExpr fin 0 rest with
    | .error e => .error e
    | .ok (u, ⟨rest', h⟩) =>
      match closeParen fin rest' with
      | .error e => .error e
      | .ok ⟨rest'', h'⟩ => .ok (u, ⟨rest'', by simp only [List.length_cons]; omega⟩)
  | ⟨token, span⟩ :: _ => .error ⟨.unexpected token, span⟩
termination_by 4 * tokens.length
decreasing_by
  all_goals simp only [List.length_cons]; omega

/-- Reads the arguments of a call and the closing parenthesis; there may be no argument. -/
def parseArguments (fin : Nat) (tokens : Tokens α) : Outcome (Shorter (List (Tree α)) tokens) α :=
  match tokens with
  | ⟨.rightParen, _⟩ :: rest => .ok ([], ⟨rest, by simp⟩)
  | tokens =>
    match parseSeries fin tokens with
    | .error e => .error e
    | .ok (us, rest) => .ok (us, rest)
termination_by 4 * tokens.length + 3

/-- Reads one or more trees with commas between them, and the closing parenthesis. -/
def parseSeries (fin : Nat) (tokens : Tokens α) : Outcome (Shorter (List (Tree α)) tokens) α :=
  match parseExpr fin 0 tokens with
  | .error e => .error e
  | .ok (u, ⟨⟨.comma, _⟩ :: rest, h⟩) =>
    match parseSeries fin rest with
    | .error e => .error e
    | .ok (us, ⟨rest', h'⟩) =>
      .ok (u :: us, ⟨rest', by simp only [List.length_cons] at h; omega⟩)
  | .ok (u, ⟨⟨.rightParen, _⟩ :: rest, h⟩) =>
    .ok ([u], ⟨rest, by simp only [List.length_cons] at h; omega⟩)
  | .ok (_, ⟨⟨token, span⟩ :: _, _⟩) => .error ⟨.unseparated token, span⟩
  | .ok (_, ⟨[], _⟩) => .error ⟨.unclosedEnd, .single fin⟩
termination_by 4 * tokens.length + 2
decreasing_by
  · omega
  · simp only [List.length_cons] at h
    omega

end

/-- Reads all tokens as one tree; `fin` is where the text ends. -/
def parseAll (fin : Nat) (tokens : Tokens α) : Outcome (Tree α) α :=
  if tokens.isEmpty then .error ⟨.emptyExpression, .single (fin - 1)⟩
  else
    match parseExpr fin 0 tokens with
    | .error e => .error e
    | .ok (u, ⟨[], _⟩) => .ok u
    | .ok (_, ⟨⟨token, span⟩ :: _, _⟩) => .error ⟨.unexpected token, span⟩

/-- Reads a piece of the text `input` that starts at a byte of it. -/
def parseSide (limits : Limits) (input : String) (start : Nat) (cs : List Char) :
    Except (ParseError α) (Tree α) :=
  match Token.lex start cs with
  | .error e => .error ⟨input, e.item, some e.span⟩
  | .ok tokens =>
    match parseAll (start + byteLength cs) tokens with
    | .error e => .error ⟨input, e.item, some e.span⟩
    | .ok t => t.bounded limits input

/-- Reads a tree, within the default limits. -/
def parse (input : String) : Except (ParseError α) (Tree α) :=
  parseSide {} input 0 input.toList

/-- Reads an equation as a tree that has to be zero. -/
def parseEquation (limits : Limits) (input : String) : Except (Error α) (Tree α) :=
  let cs := input.toList
  if trimBlanks cs = [] then .error (.parse ⟨input, .emptyEquation, none⟩)
  else
    match splitFirst? (· == '=') cs with
    | none => (parseSide limits input 0 cs).mapError .parse
    | some (left, right) =>
      if right.contains '=' then .error (.malformed input (cs.count '='))
      else
        Except.mapError .parse do
          let u ← parseSide limits input 0 left
          let v ← parseSide limits input (byteLength left + 1) right
          bounded limits input (.sub u v)

section Simulation

variable {γ : Type}

omit [Scalar α] in
/-- The tree of an expression is as large as the expression. -/
theorem size_tree (e : Expr α) : e.tree.size = e.size := by
  induction e with
  | number _ | constant _ | symbol _ => rfl
  | call f u ih => simp only [Expr.tree, size, sizeAll, Expr.size, ih, Nat.add_zero]
  | add u v ihu ihv | sub u v ihu ihv | mul u v ihu ihv | div u v ihu ihv | pow u v ihu ihv =>
    simp only [Expr.tree, size, Expr.size, ihu, ihv]

omit [Scalar α] in
/-- The tree of an expression is as deep as the expression. -/
theorem depth_tree (e : Expr α) : e.tree.depth = e.depth := by
  induction e with
  | number _ | constant _ | symbol _ => rfl
  | call f u ih => simp only [Expr.tree, depth, depthAll, Expr.depth, ih, Nat.max_zero]
  | add u v ihu ihv | sub u v ihu ihv | mul u v ihu ihv | div u v ihu ihv | pow u v ihu ihv =>
    simp only [Expr.tree, depth, Expr.depth, ihu, ihv]

omit [Scalar α] in
/-- A tree is within the limits exactly if its expression is. -/
theorem bounded_tree (limits : Limits) (input : String) (e : Expr α) :
    e.tree.bounded limits input = (e.bounded limits input).map Expr.tree := by
  simp only [bounded, Expr.bounded, Expr.excess?, size_tree, depth_tree]
  split_ifs <;> rfl

omit [Scalar α] in
/-- An operator makes the tree of the expression that it makes. -/
theorem combine_tree (op : Operator) (u v : Expr α) :
    combine op u.tree v.tree = (Parser.combine op u v).tree := by
  cases op <;> rfl

omit [Scalar α] in
/-- An identifier that is not called is read alike. -/
theorem ofName_eq (name : String) : ofName name = (nameExpr name : Expr α).tree := by
  unfold ofName nameExpr
  cases Constant.ofName? name <;> rfl

omit [Scalar α] in
/-- A call is made under the name of the function that was found, exactly if there is one
argument. -/
theorem ofCall_eq (f : Func) (name : Placed String) (us : List (Expr α)) :
    ofCall f name (us.map Expr.tree) = (callExpr f name us).map Expr.tree := by
  match us with
  | [] | [u] | u :: v :: us => simp [ofCall, callExpr, Func.arity, Except.map, Expr.tree]

omit [Scalar α] in
/-- A result with the tree of its expression. -/
def treed (r : Outcome (Expr α × γ) α) : Outcome (Tree α × γ) α :=
  r.map fun result => (result.1.tree, result.2)

omit [Scalar α] in
/-- A result with the trees of its expressions. -/
def treedAll (r : Outcome (List (Expr α) × γ) α) : Outcome (List (Tree α) × γ) α :=
  r.map fun result => (result.1.map Expr.tree, result.2)

mutual

/-- To read a tree is to read the expression of which it is the tree. -/
theorem parseExpr_eq (fin least : Nat) (tokens : Tokens α) :
    parseExpr fin least tokens = treed (Parser.parseExpr fin least tokens) := by
  rw [parseExpr, parseOperand_eq, Parser.parseExpr]
  cases Parser.parseOperand fin tokens with
  | error e => rfl
  | ok operand =>
    obtain ⟨left, rest, hrest⟩ := operand
    simp only [treed, Except.map]
    rw [climb_eq fin least left rest]
    cases Parser.climb fin least left rest with
    | error e => rfl
    | ok result => rfl
termination_by 4 * tokens.length + 1

/-- To go on behind a tree is to go on behind its expression. -/
theorem climb_eq (fin least : Nat) (left : Expr α) (tokens : Tokens α) :
    climb fin least left.tree tokens = treed (Parser.climb fin least left tokens) := by
  rcases tokens with _ | ⟨⟨token, s⟩, tokens⟩
  · rw [climb, Parser.climb]
    · rfl
    all_goals simp
  · cases token with
    | operator op =>
      rw [climb, Parser.climb]
      split
      · rfl
      · rw [parseExpr_eq fin op.rightPrecedence tokens]
        cases Parser.parseExpr fin op.rightPrecedence tokens with
        | error e => rfl
        | ok operand =>
          obtain ⟨right, rest, hrest⟩ := operand
          simp only [treed, Except.map, combine_tree]
          rw [climb_eq fin least (Parser.combine op left right) rest]
          cases Parser.climb fin least (Parser.combine op left right) rest with
          | error e => rfl
          | ok result => rfl
    | _ =>
      rw [climb, Parser.climb]
      · rfl
      all_goals simp
termination_by 4 * tokens.length

/-- To read an operand as a tree is to read it as an expression. -/
theorem parseOperand_eq (fin : Nat) (tokens : Tokens α) :
    parseOperand fin tokens = treed (Parser.parseOperand fin tokens) := by
  rcases tokens with _ | ⟨⟨token, s⟩, tokens⟩
  · rw [parseOperand, Parser.parseOperand]
    rfl
  cases token with
  | number x =>
    rw [parseOperand, Parser.parseOperand]
    rfl
  | identifier name =>
    -- The name is looked up before the arguments are read, so an unknown one is refused first.
    by_cases hopen : ∃ s' ts, tokens = ⟨.leftParen, s'⟩ :: ts
    · obtain ⟨s', tokens, rfl⟩ := hopen
      rw [parseOperand, Parser.parseOperand]
      cases Func.ofName? name with
      | none => rfl
      | some f =>
        dsimp only
        rw [parseArguments_eq fin tokens]
        cases Parser.parseArguments fin tokens with
        | error e => rfl
        | ok result =>
          obtain ⟨us, rest, hrest⟩ := result
          simp only [treedAll, Except.map, ofCall_eq]
          cases callExpr f ⟨name, s⟩ us with
          | error e => rfl
          | ok u => rfl
    · have hclosed : ∀ s' ts, tokens ≠ ⟨.leftParen, s'⟩ :: ts := fun s' ts h => hopen ⟨s', ts, h⟩
      rw [parseOperand, Parser.parseOperand, ofName_eq]
      · rfl
      · exact hclosed
      · exact hclosed
  | operator op =>
    cases op with
    | sub =>
      rw [parseOperand, Parser.parseOperand, parseExpr_eq fin signPrecedence tokens]
      cases Parser.parseExpr fin signPrecedence tokens with
      | error e => rfl
      | ok result => simp only [treed, Except.map, Expr.tree_negate]
    | add =>
      rw [parseOperand, Parser.parseOperand, parseExpr_eq fin signPrecedence tokens]
      cases Parser.parseExpr fin signPrecedence tokens with
      | error e => rfl
      | ok result => rfl
    | mul | div | pow =>
      rw [parseOperand, Parser.parseOperand]
      · rfl
      all_goals simp
  | leftParen =>
    by_cases hempty : ∃ s' ts, tokens = ⟨.rightParen, s'⟩ :: ts
    · obtain ⟨s', tokens, rfl⟩ := hempty
      rw [parseOperand, Parser.parseOperand]
      rfl
    · have hfilled : ∀ s' ts, tokens ≠ ⟨.rightParen, s'⟩ :: ts := fun s' ts h => hempty ⟨s', ts, h⟩
      rw [parseOperand, Parser.parseOperand, parseExpr_eq fin 0 tokens]
      · cases Parser.parseExpr fin 0 tokens with
        | error e => rfl
        | ok result =>
          obtain ⟨u, rest, hrest⟩ := result
          simp only [treed, Except.map]
          cases closeParen fin rest with
          | error e => rfl
          | ok behind => rfl
      · exact hfilled
      · exact hfilled
  | rightParen | comma =>
    rw [parseOperand, Parser.parseOperand]
    · rfl
    all_goals simp
termination_by 4 * tokens.length

/-- The arguments of a call are read as the trees of its arguments. -/
theorem parseArguments_eq (fin : Nat) (tokens : Tokens α) :
    parseArguments fin tokens = treedAll (Parser.parseArguments fin tokens) := by
  by_cases hclose : ∃ s ts, tokens = ⟨.rightParen, s⟩ :: ts
  · obtain ⟨s, tokens, rfl⟩ := hclose
    rw [parseArguments, Parser.parseArguments]
    rfl
  · have hfilled : ∀ s ts, tokens ≠ ⟨.rightParen, s⟩ :: ts := fun s ts h => hclose ⟨s, ts, h⟩
    rw [parseArguments, Parser.parseArguments, parseSeries_eq fin tokens]
    · cases Parser.parseSeries fin tokens with
      | error e => rfl
      | ok result => rfl
    · exact hfilled
    · exact hfilled
termination_by 4 * tokens.length + 3

/-- A series of trees is read as a series of expressions. -/
theorem parseSeries_eq (fin : Nat) (tokens : Tokens α) :
    parseSeries fin tokens = treedAll (Parser.parseSeries fin tokens) := by
  rw [parseSeries, Parser.parseSeries, parseExpr_eq fin 0 tokens]
  cases Parser.parseExpr fin 0 tokens with
  | error e => rfl
  | ok result =>
    obtain ⟨u, rest, hrest⟩ := result
    rcases rest with _ | ⟨⟨token, s⟩, rest⟩
    · rfl
    · cases token with
      | comma =>
        have hshorter : rest.length < tokens.length := by
          rw [List.length_cons] at hrest
          omega
        simp only [treed, Except.map]
        rw [parseSeries_eq fin rest]
        cases Parser.parseSeries fin rest with
        | error e => rfl
        | ok series => rfl
      | _ => rfl
termination_by 4 * tokens.length + 2

end

/-- The tokens that make an expression make its tree, and no others make one. -/
theorem parseAll_eq (fin : Nat) (tokens : Tokens α) :
    parseAll fin tokens = (Parser.parseAll fin tokens).map Expr.tree := by
  unfold parseAll Parser.parseAll
  split_ifs
  · rfl
  · rw [parseExpr_eq]
    cases Parser.parseExpr fin 0 tokens with
    | error e => rfl
    | ok result =>
      obtain ⟨u, _ | ⟨token, rest⟩, hrest⟩ := result <;> rfl

/-- A piece of a text is read alike. -/
theorem parseSide_eq (limits : Limits) (input : String) (start : Nat) (cs : List Char) :
    parseSide limits input start cs =
      (Expr.parseSide limits input start cs : Except (ParseError α) (Expr α)).map Expr.tree := by
  unfold parseSide Expr.parseSide Expr.read
  cases (Token.lex start cs : Except (Placed (SyntaxFault α)) (Tokens α)) with
  | error e => rfl
  | ok tokens =>
    dsimp only
    rw [parseAll_eq]
    cases Parser.parseAll (start + byteLength cs) tokens with
    | error e => rfl
    | ok e => exact bounded_tree limits input e

/-- A text is read as the tree of the expression that is read from it, or refused for the same
reason. -/
theorem parse_eq (input : String) :
    parse input = (Expr.parse input : Except (ParseError α) (Expr α)).map Expr.tree :=
  parseSide_eq {} input 0 input.toList

/-- An equation is read as the tree of the expression that is read from it, or refused for the same
reason. -/
theorem parseEquation_eq (limits : Limits) (input : String) :
    parseEquation limits input =
      (Expr.parseEquation limits input : Except (Error α) (Expr α)).map Expr.tree := by
  unfold parseEquation Expr.parseEquation
  dsimp only
  split_ifs
  · rfl
  · cases splitFirst? (· == '=') input.toList with
    | none =>
      dsimp only
      rw [parseSide_eq, mapError_map]
    | some sides =>
      obtain ⟨left, right⟩ := sides
      dsimp only
      split_ifs
      · rfl
      · rw [parseSide_eq, parseSide_eq, ← mapError_map]
        congr 1
        cases (Expr.parseSide limits input 0 left : Except (ParseError α) (Expr α)) with
        | error e => rfl
        | ok u =>
          cases (Expr.parseSide limits input (byteLength left + 1) right :
              Except (ParseError α) (Expr α)) with
          | error e => rfl
          | ok v => exact bounded_tree limits input (.sub u v)

end Simulation

end Tree

end ErrorBudget
