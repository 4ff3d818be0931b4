import ErrorBudget.Expr.Parser
import Mathlib.Logic.Basic

/-!
# Steps of the parser

What each function of the parser reads, as a relation between the tokens before, the result, and the
tokens behind it: `Reads`, `Climbs` and `ReadsOperand`. The relations drop the bounds that make the
parser end, and each has one law for each way in which the function can go on, in both directions.
Places of tokens and failures play no part in them.
-/

set_option autoImplicit false

namespace ErrorBudget

namespace Parser

variable {α : Type}

/-- The next token is no operator that binds at least as strongly as `least`. -/
def Stops (least : Nat) (tokens : Tokens α) : Prop :=
  ∀ op s rest, tokens = ⟨.operator op, s⟩ :: rest → op.precedence < least

/-- The next token does not open a parenthesis. -/
def Closed (tokens : Tokens α) : Prop :=
  ∀ s rest, tokens ≠ ⟨.leftParen, s⟩ :: rest

section Results

/-- What is read, and what is left, when a step succeeds. -/
theorem exists_ok_iff {β : Type} {v w : β} {tokens mid rest : Tokens α}
    (hmid : mid.length < tokens.length) :
    (∃ h, (.ok (v, ⟨mid, hmid⟩) : Outcome (Shorter β tokens) α) = .ok (w, ⟨rest, h⟩)) ↔
      w = v ∧ rest = mid := by
  simp only [Except.ok.injEq, Prod.mk.injEq, Subtype.mk.injEq]
  constructor
  · rintro ⟨-, rfl, rfl⟩
    exact ⟨rfl, rfl⟩
  · rintro ⟨rfl, rfl⟩
    exact ⟨hmid, rfl, rfl⟩

/-- A parenthesis is closed exactly by the next token. -/
theorem closeParen_eq_ok_iff {fin : Nat} {tokens rest : Tokens α}
    {h : rest.length < tokens.length} :
    closeParen fin tokens = .ok ⟨rest, h⟩ ↔ ∃ s, tokens = ⟨.rightParen, s⟩ :: rest := by
  rcases tokens with _ | ⟨⟨token, s⟩, ts⟩
  · simp [closeParen]
  · cases token <;> simp [closeParen]

/-- A call is made exactly of one argument. -/
theorem callExpr_eq_ok_iff {f : Func} {name : Placed String} {us : List (Expr α)} {u : Expr α} :
    callExpr f name us = .ok u ↔ ∃ v, us = [v] ∧ u = .call f v := by
  rcases us with _ | ⟨v, _ | ⟨w, us⟩⟩
  · simp [callExpr]
  · simp [callExpr, eq_comm]
  · simp [callExpr]

end Results

variable [Scalar α] {fin least : Nat} {tokens rest : Tokens α} {left u : Expr α}

/-- The expression `u` is read, and the tokens `rest` are left. -/
def Reads (fin least : Nat) (tokens : Tokens α) (u : Expr α) (rest : Tokens α) : Prop :=
  ∃ h, parseExpr fin least tokens = .ok (u, ⟨rest, h⟩)

/-- The operand `left` grows to the expression `u`, and the tokens `rest` are left. -/
def Climbs (fin least : Nat) (left : Expr α) (tokens : Tokens α) (u : Expr α) (rest : Tokens α) :
    Prop :=
  ∃ h, climb fin least left tokens = .ok (u, ⟨rest, h⟩)

/-- The operand `u` is read, and the tokens `rest` are left. -/
def ReadsOperand (fin : Nat) (tokens : Tokens α) (u : Expr α) (rest : Tokens α) : Prop :=
  ∃ h, parseOperand fin tokens = .ok (u, ⟨rest, h⟩)

/-- The arguments `us`, at least one, and the parenthesis behind them are read, and the tokens
`rest` are left. -/
def ReadsSeries (fin : Nat) (tokens : Tokens α) (us : List (Expr α)) (rest : Tokens α) : Prop :=
  ∃ h, parseSeries fin tokens = .ok (us, ⟨rest, h⟩)

/-- The arguments `us` and the parenthesis behind them are read, and the tokens `rest` are left. -/
def ReadsArguments (fin : Nat) (tokens : Tokens α) (us : List (Expr α)) (rest : Tokens α) : Prop :=
  ∃ h, parseArguments fin tokens = .ok (us, ⟨rest, h⟩)

/-- An operand takes at least one token. -/
theorem ReadsOperand.length_lt (h : ReadsOperand fin tokens u rest) :
    rest.length < tokens.length :=
  h.1

/-- An expression is an operand that grows. -/
theorem reads_iff : Reads fin least tokens u rest ↔
    ∃ left mid, ReadsOperand fin tokens left mid ∧ Climbs fin least left mid u rest := by
  unfold Reads ReadsOperand Climbs
  rw [parseExpr]
  constructor
  · rintro ⟨h, hok⟩
    split at hok
    · contradiction
    · rename_i left mid hmid hoperand
      split at hok
      · contradiction
      · rename_i v rest' hrest' hclimb
        simp only [Except.ok.injEq, Prod.mk.injEq, Subtype.mk.injEq] at hok
        obtain ⟨rfl, rfl⟩ := hok
        exact ⟨left, mid, ⟨hmid, hoperand⟩, hrest', hclimb⟩
  · rintro ⟨left, mid, ⟨hmid, hoperand⟩, hrest, hclimb⟩
    refine ⟨Nat.lt_of_le_of_lt hrest hmid, ?_⟩
    simp only [hoperand, hclimb]

/-- At a weaker operator, or at none, an operand is complete. -/
theorem climbs_of_stops (h : Stops least tokens) :
    Climbs fin least left tokens u rest ↔ u = left ∧ rest = tokens := by
  have hdone : climb fin least left tokens = .ok (left, ⟨tokens, Nat.le_refl _⟩) := by
    rcases tokens with _ | ⟨⟨token, s⟩, ts⟩
    · rw [climb]
      simp
    · cases token with
      | operator op => rw [climb, if_pos (h op s ts rfl)]
      | _ =>
        rw [climb]
        simp
  unfold Climbs
  rw [hdone]
  simp only [Except.ok.injEq, Prod.mk.injEq, Subtype.mk.injEq]
  constructor
  · rintro ⟨-, rfl, rfl⟩
    exact ⟨rfl, rfl⟩
  · rintro ⟨rfl, rfl⟩
    exact ⟨Nat.le_refl _, rfl, rfl⟩

/-- An operator that binds strongly enough takes its right operand, and its result is the next left
operand. -/
theorem climbs_of_le {op : Operator} (s : Span) (h : least ≤ op.precedence) :
    Climbs fin least left (⟨.operator op, s⟩ :: tokens) u rest ↔
      ∃ right mid, Reads fin op.rightPrecedence tokens right mid ∧
        Climbs fin least (combine op left right) mid u rest := by
  unfold Climbs Reads
  rw [climb]
  simp only [Nat.not_lt.mpr h, if_false]
  constructor
  · rintro ⟨hrest, hok⟩
    split at hok
    · contradiction
    · rename_i right mid hmid hright
      split at hok
      · contradiction
      · rename_i v rest' hrest' hclimb
        simp only [Except.ok.injEq, Prod.mk.injEq, Subtype.mk.injEq] at hok
        obtain ⟨rfl, rfl⟩ := hok
        exact ⟨right, mid, ⟨hmid, hright⟩, hrest', hclimb⟩
  · rintro ⟨right, mid, ⟨hmid, hright⟩, hrest, hclimb⟩
    refine ⟨Nat.le_succ_of_le (Nat.le_of_lt (Nat.lt_of_le_of_lt hrest hmid)), ?_⟩
    simp only [hright, hclimb]

section Operands

/-- A number is an operand. -/
theorem readsOperand_number (x : α) (s : Span) :
    ReadsOperand fin (⟨.number x, s⟩ :: tokens) u rest ↔ u = .number x ∧ rest = tokens := by
  unfold ReadsOperand
  rw [parseOperand]
  exact exists_ok_iff _

/-- A name that is not called is an operand. -/
theorem readsOperand_name (name : String) (s : Span) (h : Closed tokens) :
    ReadsOperand fin (⟨.identifier name, s⟩ :: tokens) u rest ↔
      u = nameExpr name ∧ rest = tokens := by
  unfold ReadsOperand
  rw [parseOperand]
  · exact exists_ok_iff _
  · exact fun s' ts => h s' ts

/-- A minus sign takes what binds at least as strongly as a sign, and negates it. -/
theorem readsOperand_neg (s : Span) :
    ReadsOperand fin (⟨.operator .sub, s⟩ :: tokens) u rest ↔
      ∃ v, Reads fin signPrecedence tokens v rest ∧ u = v.negate := by
  unfold ReadsOperand Reads
  rw [parseOperand]
  constructor
  · rintro ⟨hrest, hok⟩
    split at hok
    · contradiction
    · rename_i v mid hmid hread
      obtain ⟨rfl, rfl⟩ := (exists_ok_iff _).mp ⟨hrest, hok⟩
      exact ⟨v, ⟨hmid, hread⟩, rfl⟩
  · rintro ⟨v, ⟨hmid, hread⟩, rfl⟩
    refine ⟨Nat.lt_succ_of_lt hmid, ?_⟩
    simp only [hread]

/-- A plus sign takes what binds at least as strongly as a sign. -/
theorem readsOperand_pos (s : Span) :
    ReadsOperand fin (⟨.operator .add, s⟩ :: tokens) u rest ↔
      Reads fin signPrecedence tokens u rest := by
  unfold ReadsOperand Reads
  rw [parseOperand]
  constructor
  · rintro ⟨hrest, hok⟩
    split at hok
    · contradiction
    · rename_i v mid hmid hread
      obtain ⟨rfl, rfl⟩ := (exists_ok_iff _).mp ⟨hrest, hok⟩
      exact ⟨hmid, hread⟩
  · rintro ⟨hmid, hread⟩
    refine ⟨Nat.lt_succ_of_lt hmid, ?_⟩
    simp only [hread]

/-- At the end there is no operand. -/
theorem not_readsOperand_nil : ¬ReadsOperand fin ([] : Tokens α) u rest := by
  unfold ReadsOperand
  rw [parseOperand]
  simp

/-- A comma is no operand. -/
theorem not_readsOperand_comma (s : Span) :
    ¬ReadsOperand fin (⟨.comma, s⟩ :: tokens) u rest := by
  unfold ReadsOperand
  rw [parseOperand] <;> simp

/-- Only the operators of sums can stand in front of an operand. -/
theorem not_readsOperand_operator {op : Operator} (s : Span) (hadd : op ≠ .add) (hsub : op ≠ .sub) :
    ¬ReadsOperand fin (⟨.operator op, s⟩ :: tokens) u rest := by
  unfold ReadsOperand
  rw [parseOperand] <;> simp [hadd, hsub]

/-- No operand starts with a parenthesis that closes. -/
theorem not_readsOperand_rightParen (s : Span) :
    ¬ReadsOperand fin (⟨.rightParen, s⟩ :: tokens) u rest := by
  unfold ReadsOperand
  rw [parseOperand] <;> simp

/-- A closing parenthesis is no expression. -/
theorem not_reads_rightParen (s : Span) :
    ¬Reads fin least (⟨.rightParen, s⟩ :: tokens) u rest := by
  rintro h
  obtain ⟨left, mid, hoperand, -⟩ := reads_iff.mp h
  exact not_readsOperand_rightParen s hoperand

/-- An expression in parentheses is an operand. -/
theorem readsOperand_paren (s : Span) :
    ReadsOperand fin (⟨.leftParen, s⟩ :: tokens) u rest ↔
      ∃ s', Reads fin 0 tokens u (⟨.rightParen, s'⟩ :: rest) := by
  by_cases hclose : ∃ s' ts, tokens = ⟨.rightParen, s'⟩ :: ts
  · obtain ⟨s', ts, rfl⟩ := hclose
    have hnone : ¬∃ s'', Reads fin 0 (⟨.rightParen, s'⟩ :: ts) u (⟨.rightParen, s''⟩ :: rest) :=
      fun ⟨_, h⟩ => not_reads_rightParen s' h
    rw [iff_false_right hnone]
    unfold ReadsOperand
    rw [parseOperand]
    simp
  · unfold ReadsOperand Reads
    rw [parseOperand]
    · constructor
      · rintro ⟨hrest, hok⟩
        split at hok
        · contradiction
        · rename_i v mid hmid hread
          split at hok
          · contradiction
          · rename_i rest' hrest' hclosed
            obtain ⟨rfl, rfl⟩ := (exists_ok_iff _).mp ⟨hrest, hok⟩
            obtain ⟨s', rfl⟩ := closeParen_eq_ok_iff.mp hclosed
            exact ⟨s', hmid, hread⟩
      · rintro ⟨s', hmid, hread⟩
        refine ⟨by simp only [List.length_cons] at hmid ⊢; omega, ?_⟩
        simp only [hread, closeParen]
    · exact fun s' ts h => hclose ⟨s', ts, h⟩

/-- A list of arguments is never empty. -/
theorem not_readsSeries_nil : ¬ReadsSeries fin tokens [] rest := by
  rintro ⟨hrest, hok⟩
  rw [parseSeries] at hok
  split at hok
  · contradiction
  · split at hok
    · contradiction
    · simp at hok
  · simp at hok
  · contradiction
  · contradiction

/-- Behind an argument a parenthesis closes, or a comma stands in front of another argument. -/
theorem readsSeries_cons {us : List (Expr α)} : ReadsSeries fin tokens (u :: us) rest ↔
    (us = [] ∧ ∃ s, Reads fin 0 tokens u (⟨.rightParen, s⟩ :: rest)) ∨
      ∃ s mid, Reads fin 0 tokens u (⟨.comma, s⟩ :: mid) ∧ ReadsSeries fin mid us rest := by
  constructor
  · rintro ⟨hrest, hok⟩
    rw [parseSeries] at hok
    split at hok
    · contradiction
    · rename_i v s mid hmid hread
      split at hok
      · contradiction
      · rename_i vs rest' hrest' hseries
        obtain ⟨hus, rfl⟩ := (exists_ok_iff _).mp ⟨hrest, hok⟩
        obtain ⟨rfl, rfl⟩ := List.cons.inj hus
        exact .inr ⟨s, mid, ⟨hmid, hread⟩, hrest', hseries⟩
    · rename_i v s mid hmid hread
      obtain ⟨hus, rfl⟩ := (exists_ok_iff _).mp ⟨hrest, hok⟩
      obtain ⟨rfl, rfl⟩ := List.cons.inj hus
      exact .inl ⟨rfl, s, hmid, hread⟩
    · contradiction
    · contradiction
  · rintro (⟨rfl, s, hmid, hread⟩ | ⟨s, mid, ⟨hmid, hread⟩, hrest, hseries⟩)
    · refine ⟨by simp only [List.length_cons] at hmid; omega, ?_⟩
      rw [parseSeries]
      simp only [hread]
    · refine ⟨by simp only [List.length_cons] at hmid; omega, ?_⟩
      rw [parseSeries]
      simp only [hread, hseries]

/-- No series of arguments starts with a parenthesis that closes. -/
theorem not_readsSeries_rightParen {us : List (Expr α)} (s : Span) :
    ¬ReadsSeries fin (⟨.rightParen, s⟩ :: tokens) us rest := by
  intro h
  cases us with
  | nil => exact not_readsSeries_nil h
  | cons u us =>
    rcases readsSeries_cons.mp h with ⟨-, _, hread⟩ | ⟨_, _, hread, -⟩
    · exact not_reads_rightParen s hread
    · exact not_reads_rightParen s hread

/-- Either a parenthesis closes at once, or there is an argument. -/
theorem readsArguments_iff {us : List (Expr α)} : ReadsArguments fin tokens us rest ↔
    (us = [] ∧ ∃ s, tokens = ⟨.rightParen, s⟩ :: rest) ∨ ReadsSeries fin tokens us rest := by
  by_cases hclose : ∃ s ts, tokens = ⟨.rightParen, s⟩ :: ts
  · obtain ⟨s, ts, rfl⟩ := hclose
    rw [or_iff_left (not_readsSeries_rightParen s), ReadsArguments, parseArguments, exists_ok_iff]
    simp [eq_comm]
  · have hnone : ¬(us = [] ∧ ∃ s, tokens = ⟨.rightParen, s⟩ :: rest) := by
      rintro ⟨-, s, h⟩
      exact hclose ⟨s, rest, h⟩
    rw [or_iff_right hnone, ReadsArguments, ReadsSeries, parseArguments]
    · constructor
      · rintro ⟨hrest, hok⟩
        split at hok
        · contradiction
        · rename_i vs mid hseries
          obtain ⟨rfl, rfl⟩ := (exists_ok_iff _).mp ⟨hrest, hok⟩
          exact ⟨hrest, hseries⟩
      · rintro ⟨hrest, hseries⟩
        refine ⟨hrest, ?_⟩
        simp only [hseries]
    · exact fun s ts h => hclose ⟨s, ts, h⟩

/-- One argument is an expression in front of a closing parenthesis. -/
theorem readsArguments_singleton : ReadsArguments fin tokens [u] rest ↔
    ∃ s, Reads fin 0 tokens u (⟨.rightParen, s⟩ :: rest) := by
  simp [readsArguments_iff, readsSeries_cons, not_readsSeries_nil]

/-- A call has one argument, in parentheses. -/
theorem readsOperand_call (name : String) (s s' : Span) :
    ReadsOperand fin (⟨.identifier name, s⟩ :: ⟨.leftParen, s'⟩ :: tokens) u rest ↔
      ∃ f v s'', Func.ofName? name = some f ∧ u = .call f v ∧
        Reads fin 0 tokens v (⟨.rightParen, s''⟩ :: rest) := by
  unfold ReadsOperand
  rw [parseOperand]
  constructor
  · rintro ⟨hrest, hok⟩
    split at hok
    · contradiction
    · rename_i f hf
      split at hok
      · contradiction
      · rename_i us mid hmid harguments
        split at hok
        · contradiction
        · rename_i v hcall
          obtain ⟨rfl, rfl⟩ := (exists_ok_iff _).mp ⟨hrest, hok⟩
          obtain ⟨w, rfl, rfl⟩ := callExpr_eq_ok_iff.mp hcall
          obtain ⟨s'', hread⟩ := readsArguments_singleton.mp ⟨hmid, harguments⟩
          exact ⟨f, w, s'', hf, rfl, hread⟩
  · rintro ⟨f, v, s'', hf, rfl, hread⟩
    obtain ⟨hmid, harguments⟩ := readsArguments_singleton.mpr ⟨s'', hread⟩
    refine ⟨by simp only [List.length_cons]; omega, ?_⟩
    simp only [hf, harguments, callExpr]

end Operands

end Parser

end ErrorBudget
