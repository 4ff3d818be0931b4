import ErrorBudget.Proofs.Parser.Steps
import Mathlib.Tactic.SplitIfs

/-!
# The grammar of expressions

The grammar has five layers (`Layer`), and `Derives` says which tokens derive from a layer, and with
which meaning. The parser accepts exactly the tokens that derive from a sum, and builds their
meaning (`parseAll_eq_ok_iff`); so no tokens have two meanings (`Derives.eq_of_sum`).

The parser knows no layers, only how strongly an operator binds. What connects the two is the
strength of a layer: behind tokens of a layer, an operator weaker than the strength leaves them
complete. Whatever derives is read, if such an operator follows (`Derives.isRead`); and whatever is
read derives from the layer that the least precedence stands for (`derives_of_reads`).
-/

set_option autoImplicit false

namespace ErrorBudget

namespace Parser

variable {α : Type}

/-- The layers of the grammar. -/
inductive Layer where
  | atom
  | power
  | unary
  | product
  | sum
  deriving DecidableEq, Repr

/-- The tokens derive from a layer of the grammar, with an expression as their meaning. -/
inductive Derives [Scalar α] : Layer → Tokens α → Expr α → Prop
  /-- A sum of one term. -/
  | term {ts u} (h : Derives .product ts u) : Derives .sum ts u
  | add {ts ts' u v} (s : Span) (h : Derives .sum ts u) (h' : Derives .product ts' v) :
      Derives .sum (ts ++ ⟨.operator .add, s⟩ :: ts') (.add u v)
  | sub {ts ts' u v} (s : Span) (h : Derives .sum ts u) (h' : Derives .product ts' v) :
      Derives .sum (ts ++ ⟨.operator .sub, s⟩ :: ts') (.sub u v)
  /-- A product of one factor. -/
  | factor {ts u} (h : Derives .unary ts u) : Derives .product ts u
  | mul {ts ts' u v} (s : Span) (h : Derives .product ts u) (h' : Derives .unary ts' v) :
      Derives .product (ts ++ ⟨.operator .mul, s⟩ :: ts') (.mul u v)
  | div {ts ts' u v} (s : Span) (h : Derives .product ts u) (h' : Derives .unary ts' v) :
      Derives .product (ts ++ ⟨.operator .div, s⟩ :: ts') (.div u v)
  /-- A sign in front of a literal belongs to it. -/
  | negLiteral {ts n} (s : Span) (h : Derives .unary ts (.number n)) :
      Derives .unary (⟨.operator .sub, s⟩ :: ts) (.number (-n))
  | neg {ts u} (s : Span) (h : Derives .unary ts u) (hu : ∀ n, u ≠ .number n) :
      Derives .unary (⟨.operator .sub, s⟩ :: ts) (.mul (.number (-1)) u)
  | pos {ts u} (s : Span) (h : Derives .unary ts u) :
      Derives .unary (⟨.operator .add, s⟩ :: ts) u
  | unsigned {ts u} (h : Derives .power ts u) : Derives .unary ts u
  | base {ts u} (h : Derives .atom ts u) : Derives .power ts u
  /-- The exponent of a power may have a sign. -/
  | pow {ts ts' u v} (s : Span) (h : Derives .atom ts u) (h' : Derives .unary ts' v) :
      Derives .power (ts ++ ⟨.operator .pow, s⟩ :: ts') (.pow u v)
  | number (x : α) (s : Span) : Derives .atom [⟨.number x, s⟩] (.number x)
  | constant {name c} (s : Span) (h : Constant.ofName? name = some c) :
      Derives .atom [⟨.identifier name, s⟩] (.constant c)
  | symbol {name} (s : Span) (h : Constant.ofName? name = none) :
      Derives .atom [⟨.identifier name, s⟩] (.symbol name)
  | call {name f ts u} (s s' s'' : Span) (hf : Func.ofName? name = some f) (h : Derives .sum ts u) :
      Derives .atom (⟨.identifier name, s⟩ :: ⟨.leftParen, s'⟩ :: ts ++ [⟨.rightParen, s''⟩])
        (.call f u)
  | paren {ts u} (s s' : Span) (h : Derives .sum ts u) :
      Derives .atom (⟨.leftParen, s⟩ :: ts ++ [⟨.rightParen, s'⟩]) u

/-- The meaning of tokens does not depend on their places. -/
theorem Derives.moved [Scalar α] (f : Span → Span) {l : Layer} {ts : Tokens α} {u : Expr α}
    (h : Derives l ts u) : Derives l (ts.map fun t => ⟨t.item, f t.span⟩) u := by
  induction h with
  | term _ ih => exact .term ih
  | factor _ ih => exact .factor ih
  | unsigned _ ih => exact .unsigned ih
  | base _ ih => exact .base ih
  | add s _ _ ih ih' => simpa using ih.add (f s) ih'
  | sub s _ _ ih ih' => simpa using ih.sub (f s) ih'
  | mul s _ _ ih ih' => simpa using ih.mul (f s) ih'
  | div s _ _ ih ih' => simpa using ih.div (f s) ih'
  | pow s _ _ ih ih' => simpa using ih.pow (f s) ih'
  | negLiteral s _ ih => exact ih.negLiteral (f s)
  | neg s _ hu ih => exact ih.neg (f s) hu
  | pos s _ ih => exact ih.pos (f s)
  | number x s => exact .number x (f s)
  | constant s hc => exact .constant (f s) hc
  | symbol s hc => exact .symbol (f s) hc
  | call s s' s'' hf _ ih => simpa using ih.call (f s) (f s') (f s'') hf
  | paren s s' _ ih => simpa using ih.paren (f s) (f s')

namespace Layer

/-- An operator weaker than this, behind tokens of a layer, leaves them complete. -/
def strength : Layer → Nat
  | sum => 11
  | product => 21
  | unary | power => 30
  | atom => 31

/-- The greatest least precedence at which a layer is read as a whole. -/
def level : Layer → Nat
  | sum => 10
  | product => 20
  | _ => 30

/-- The layer that is read at a least precedence. -/
def ofPrecedence (least : Nat) : Layer :=
  if least ≤ 10 then sum else if least ≤ 20 then product else unary

end Layer

section Followers

variable {least most : Nat} {tokens : Tokens α}

/-- What is not taken at a least precedence is not taken at a greater one. -/
theorem Stops.mono (h : Stops least tokens) (hle : least ≤ most) : Stops most tokens :=
  fun op s rest hop => Nat.lt_of_lt_of_le (h op s rest hop) hle

/-- An operator that binds too weakly is not taken. -/
theorem stops_operator {op : Operator} {s : Span} (h : op.precedence < least) :
    Stops least (⟨.operator op, s⟩ :: tokens) := by
  intro op' s' rest hop
  obtain ⟨⟨hop, -⟩, -⟩ := by simpa using hop
  subst hop
  exact h

/-- A closing parenthesis is not taken. -/
theorem stops_rightParen {s : Span} : Stops least (⟨.rightParen, s⟩ :: tokens) := by
  simp [Stops]

/-- At the end nothing is taken. -/
theorem stops_nil : Stops least ([] : Tokens α) := by
  simp [Stops]

/-- No operator binds stronger than a power. -/
theorem stops_strength_atom : Stops Layer.atom.strength tokens := by
  intro op s rest _
  cases op <;> decide

/-- Between the precedences of a product and of a power there is none. -/
theorem Stops.of_pow (h : Stops 30 tokens) (hle : 21 ≤ least) : Stops least tokens := by
  intro op s rest hop
  have hweak := h op s rest hop
  revert hweak
  cases op <;> simp only [Operator.precedence] <;> omega

/-- A name in front of an operator is not called. -/
theorem closed_operator {op : Operator} {s : Span} :
    Closed (⟨.operator op, s⟩ :: tokens) := by
  simp [Closed]

/-- A name in front of a closing parenthesis is not called. -/
theorem closed_rightParen {s : Span} : Closed (⟨.rightParen, s⟩ :: tokens) := by
  simp [Closed]

/-- A name at the end is not called. -/
theorem closed_nil : Closed ([] : Tokens α) := by
  simp [Closed]

end Followers

section Completeness

variable [Scalar α] {fin : Nat}

/-- A sign multiplies what is not a literal. -/
theorem negate_eq_mul {u : Expr α} (hu : ∀ n, u ≠ .number n) :
    u.negate = .mul (.number (-1)) u := by
  cases u with
  | number n => exact absurd rfl (hu n)
  | _ => rfl

/-- The tokens of a layer are read with their meaning: those of an atom as an operand, all others as
the beginning of an expression that grows behind them. -/
def IsRead (fin : Nat) : Layer → Tokens α → Expr α → Prop
  | .atom, ts, u => ∀ rest, Closed rest → ReadsOperand fin (ts ++ rest) u rest
  | l, ts, u => ∀ least rest w rest', least ≤ l.level → Closed rest → Stops l.strength rest →
      Climbs fin least u rest w rest' → Reads fin least (ts ++ rest) w rest'

/-- What is read behind an operator or in parentheses ends where nothing follows that it takes. -/
theorem IsRead.reads {l : Layer} {ts rest : Tokens α} {u : Expr α} {least : Nat}
    (h : IsRead fin l ts u) (hl : l ≠ .atom) (hle : least ≤ l.level) (hclosed : Closed rest)
    (hstrength : Stops l.strength rest) (hstops : Stops least rest) :
    Reads fin least (ts ++ rest) u rest := by
  have hclimbs : Climbs fin least u rest u rest := (climbs_of_stops hstops).mpr ⟨rfl, rfl⟩
  cases l with
  | atom => exact absurd rfl hl
  | _ => exact h least rest u rest hle hclosed hstrength hclimbs

/-- Whatever derives from the grammar is read. -/
theorem Derives.isRead {l : Layer} {ts : Tokens α} {u : Expr α} (h : Derives l ts u) :
    IsRead fin l ts u := by
  -- The induction carries every context in which the layer is read as a whole: what follows is not
  -- taken at the strength of the layer, and the operand may grow from there.
  induction h with
  | term _ ih =>
    intro least rest w rest' hle hclosed hstops hclimbs
    exact ih least rest w rest' (Nat.le_trans hle (by decide)) hclosed (hstops.mono (by decide))
      hclimbs
  | factor _ ih =>
    intro least rest w rest' hle hclosed hstops hclimbs
    exact ih least rest w rest' (Nat.le_trans hle (by decide)) hclosed (hstops.mono (by decide))
      hclimbs
  | unsigned _ ih => exact ih
  | add s _ _ ih ih' | sub s _ _ ih ih' =>
    intro least rest w rest' hle hclosed hstops hclimbs
    have hright := ih'.reads (by decide) (by decide) hclosed (hstops.mono (by decide)) hstops
    rw [List.append_assoc]
    exact ih least _ w rest' hle closed_operator (stops_operator (by decide))
      ((climbs_of_le s hle).mpr ⟨_, rest, hright, hclimbs⟩)
  | mul s _ _ ih ih' | div s _ _ ih ih' =>
    intro least rest w rest' hle hclosed hstops hclimbs
    have hright := ih'.reads (by decide) (by decide) hclosed (hstops.mono (by decide)) hstops
    rw [List.append_assoc]
    exact ih least _ w rest' hle closed_operator (stops_operator (by decide))
      ((climbs_of_le s hle).mpr ⟨_, rest, hright, hclimbs⟩)
  | negLiteral s _ ih =>
    intro least rest w rest' hle hclosed hstops hclimbs
    have hoperand := ih.reads (by decide) (by decide) hclosed hstops
      (hstops.of_pow (by decide : 21 ≤ signPrecedence))
    exact reads_iff.mpr ⟨_, rest, (readsOperand_neg s).mpr ⟨_, hoperand, rfl⟩, hclimbs⟩
  | neg s _ hu ih =>
    intro least rest w rest' hle hclosed hstops hclimbs
    have hoperand := ih.reads (by decide) (by decide) hclosed hstops
      (hstops.of_pow (by decide : 21 ≤ signPrecedence))
    exact reads_iff.mpr
      ⟨_, rest, (readsOperand_neg s).mpr ⟨_, hoperand, (negate_eq_mul hu).symm⟩, hclimbs⟩
  | pos s _ ih =>
    intro least rest w rest' hle hclosed hstops hclimbs
    have hoperand := ih.reads (by decide) (by decide) hclosed hstops
      (hstops.of_pow (by decide : 21 ≤ signPrecedence))
    exact reads_iff.mpr ⟨_, rest, (readsOperand_pos s).mpr hoperand, hclimbs⟩
  | base _ ih =>
    intro least rest w rest' hle hclosed hstops hclimbs
    exact reads_iff.mpr ⟨_, rest, ih rest hclosed, hclimbs⟩
  | pow s _ _ ih ih' =>
    intro least rest w rest' hle hclosed hstops hclimbs
    have hright := ih'.reads (by decide) (by decide) hclosed hstops hstops
    rw [List.append_assoc]
    exact reads_iff.mpr ⟨_, _, ih _ closed_operator,
      (climbs_of_le s hle).mpr ⟨_, rest, hright, hclimbs⟩⟩
  | number x s => exact fun rest _ => (readsOperand_number x s).mpr ⟨rfl, rfl⟩
  | constant s hc =>
    intro rest hclosed
    refine (readsOperand_name _ s hclosed).mpr ⟨?_, rfl⟩
    rw [nameExpr, hc]
  | symbol s hc =>
    intro rest hclosed
    refine (readsOperand_name _ s hclosed).mpr ⟨?_, rfl⟩
    rw [nameExpr, hc]
  | @call name f ts u s s' s'' hf _ ih =>
    intro rest _
    have hread : Reads fin 0 (ts ++ ⟨.rightParen, s''⟩ :: rest) u (⟨.rightParen, s''⟩ :: rest) :=
      ih.reads (by decide) (Nat.zero_le _) closed_rightParen stops_rightParen stops_rightParen
    simpa using (readsOperand_call name s s').mpr ⟨f, u, s'', hf, rfl, hread⟩
  | @paren ts u s s' _ ih =>
    intro rest _
    have hread : Reads fin 0 (ts ++ ⟨.rightParen, s'⟩ :: rest) u (⟨.rightParen, s'⟩ :: rest) :=
      ih.reads (by decide) (Nat.zero_le _) closed_rightParen stops_rightParen stops_rightParen
    simpa using (readsOperand_paren s).mpr ⟨s', hread⟩

end Completeness

section Soundness

variable [Scalar α] {fin least : Nat} {l : Layer} {ts tokens rest : Tokens α} {u left : Expr α}

/-- Tokens of every layer are a sum. -/
theorem Derives.sum (h : Derives l ts u) : Derives .sum ts u := by
  cases l with
  | atom => exact .term (.factor (.unsigned (.base h)))
  | power => exact .term (.factor (.unsigned h))
  | unary => exact .term (.factor h)
  | product => exact .term h
  | sum => exact h

/-- Tokens of the layers above a sum are a product. -/
theorem Derives.product (h : Derives l ts u) (hl : 11 < l.strength) : Derives .product ts u := by
  cases l with
  | atom => exact .factor (.unsigned (.base h))
  | power => exact .factor (.unsigned h)
  | unary => exact .factor h
  | product => exact h
  | sum => exact absurd hl (by decide)

/-- Tokens of the layers above a product are an operand with signs. -/
theorem Derives.unary (h : Derives l ts u) (hl : 21 < l.strength) : Derives .unary ts u := by
  cases l with
  | atom => exact .unsigned (.base h)
  | power => exact .unsigned h
  | unary => exact h
  | product | sum => exact absurd hl (by decide)

/-- What derives from a layer derives from every layer that is read at a least precedence which the
layer admits. -/
theorem Derives.ofPrecedence (h : Derives l ts u) (hle : least ≤ l.level) :
    Derives (.ofPrecedence least) ts u := by
  unfold Layer.ofPrecedence
  split_ifs with hsum hproduct
  · exact h.sum
  · refine h.product ?_
    cases l with
    | sum => exact absurd hle hsum
    | _ => decide
  · refine h.unary ?_
    cases l with
    | sum => exact absurd hle hsum
    | product => exact absurd hle hproduct
    | _ => decide

/-- An operator takes two operands to its layer. -/
theorem derives_combine {op : Operator} {ts' : Tokens α} {right : Expr α} (s : Span)
    (h : Derives l ts left) (hl : op.precedence < l.strength)
    (h' : Derives (.ofPrecedence op.rightPrecedence) ts' right) :
    ∃ l', Derives l' (ts ++ ⟨.operator op, s⟩ :: ts') (combine op left right) ∧
      l'.strength = op.rightPrecedence ∧ op.precedence ≤ l'.level := by
  cases op with
  | add => exact ⟨.sum, .add s h.sum h', rfl, Nat.le_refl _⟩
  | sub => exact ⟨.sum, .sub s h.sum h', rfl, Nat.le_refl _⟩
  | mul =>
    have hproduct := h.product (Nat.lt_trans (by decide) hl)
    exact ⟨.product, .mul s hproduct h', rfl, Nat.le_refl _⟩
  | div =>
    have hproduct := h.product (Nat.lt_trans (by decide) hl)
    exact ⟨.product, .div s hproduct h', rfl, Nat.le_refl _⟩
  | pow =>
    cases l with
    | atom => exact ⟨.power, .pow s h h', rfl, Nat.le_refl _⟩
    | _ => exact absurd hl (by decide)

/-- The right operand of every operator is read at most at the precedence of a power. -/
theorem rightPrecedence_le (op : Operator) : op.rightPrecedence ≤ 30 := by
  cases op <;> decide

/-- Expressions of fewer than `n` tokens derive from the layer that they are read as, and end where
no operator follows that they would take. -/
def SoundBelow (α : Type) [Scalar α] (fin n : Nat) : Prop :=
  ∀ (least : Nat) (tokens rest : Tokens α) (u : Expr α), tokens.length < n → least ≤ 30 →
    Reads fin least tokens u rest →
      ∃ ts, tokens = ts ++ rest ∧ Derives (.ofPrecedence least) ts u ∧ Stops least rest

/-- A name that is not called is an atom. -/
theorem derives_nameExpr (name : String) (s : Span) :
    Derives (α := α) .atom [⟨.identifier name, s⟩] (nameExpr name) := by
  unfold nameExpr
  split
  · rename_i c hc
    exact .constant s hc
  · rename_i hc
    exact .symbol s hc

/-- A sign is the sign of a literal or multiplies what is no literal. -/
theorem derives_negate (s : Span) (h : Derives .unary ts u) :
    Derives .unary (⟨.operator .sub, s⟩ :: ts) u.negate := by
  cases u with
  | number n => exact .negLiteral s h
  | _ => exact .neg s h (by simp)

/-- An operand derives from a layer, and no operator follows that the layer would take. -/
theorem derives_of_readsOperand {n : Nat} (hsound : SoundBelow α fin n) (hn : tokens.length ≤ n)
    (h : ReadsOperand fin tokens u rest) :
    ∃ l ts, tokens = ts ++ rest ∧ Derives l ts u ∧ Stops l.strength rest ∧ l.level = 30 := by
  have hatom {ts : Tokens α} (htokens : tokens = ts ++ rest) (hts : Derives .atom ts u) :
      ∃ l ts, tokens = ts ++ rest ∧ Derives l ts u ∧ Stops l.strength rest ∧ l.level = 30 :=
    ⟨.atom, ts, htokens, hts, stops_strength_atom, rfl⟩
  rcases tokens with _ | ⟨⟨token, s⟩, tail⟩
  · exact absurd h not_readsOperand_nil
  simp only [List.length_cons] at hn
  cases token with
  | number x =>
    obtain ⟨rfl, rfl⟩ := (readsOperand_number x s).mp h
    exact hatom rfl (.number x s)
  | identifier name =>
    -- A call or a parenthesis holds fewer tokens, for which soundness is assumed.
    by_cases hclosed : Closed tail
    · obtain ⟨rfl, rfl⟩ := (readsOperand_name name s hclosed).mp h
      exact hatom rfl (derives_nameExpr name s)
    · simp only [Closed, not_forall, ne_eq, not_not] at hclosed
      obtain ⟨s', tail, rfl⟩ := hclosed
      simp only [List.length_cons] at hn
      obtain ⟨f, v, s'', hf, rfl, hread⟩ := (readsOperand_call name s s').mp h
      obtain ⟨ts, rfl, hts, -⟩ := hsound 0 _ _ _ (by omega) (by omega) hread
      exact hatom (by simp) (.call s s' s'' hf hts)
  | operator op =>
    cases op with
    | sub =>
      obtain ⟨v, hread, rfl⟩ := (readsOperand_neg s).mp h
      obtain ⟨ts, rfl, hts, hrest⟩ := hsound _ _ _ _ (by omega) (by decide) hread
      exact ⟨.unary, _, rfl, derives_negate s hts, hrest.mono (by decide), rfl⟩
    | add =>
      obtain ⟨ts, rfl, hts, hrest⟩ :=
        hsound _ _ _ _ (by omega) (by decide) ((readsOperand_pos s).mp h)
      exact ⟨.unary, _, rfl, .pos s hts, hrest.mono (by decide), rfl⟩
    | _ => exact absurd h (not_readsOperand_operator s (by decide) (by decide))
  | leftParen =>
    obtain ⟨s', hread⟩ := (readsOperand_paren s).mp h
    obtain ⟨ts, rfl, hts, -⟩ := hsound 0 _ _ _ (by omega) (by omega) hread
    exact hatom (by simp) (.paren s s' hts)
  | rightParen => exact absurd h (not_readsOperand_rightParen s)
  | comma => exact absurd h (not_readsOperand_comma s)

/-- What an operand of some layer grows to derives from the layer of the least precedence. -/
theorem derives_of_climbs {n : Nat} (hsound : SoundBelow α fin n) (hn : tokens.length ≤ n)
    (hleft : Derives l ts left) (hstrength : Stops l.strength tokens) (hle : least ≤ l.level)
    (h : Climbs fin least left tokens u rest) :
    ∃ ts', tokens = ts' ++ rest ∧ Derives (.ofPrecedence least) (ts ++ ts') u ∧
      Stops least rest := by
  induction hlength : tokens.length using Nat.strongRecOn generalizing l ts left tokens with
  | _ k ih =>
    by_cases hstops : Stops least tokens
    · obtain ⟨rfl, rfl⟩ := (climbs_of_stops hstops).mp h
      exact ⟨[], rfl, by simpa using hleft.ofPrecedence hle, hstops⟩
    · simp only [Stops, not_forall, Nat.not_lt] at hstops
      obtain ⟨op, s, tail, rfl, hop⟩ := hstops
      obtain ⟨right, mid, hright, hclimbs⟩ := (climbs_of_le s hop).mp h
      simp only [List.length_cons] at hn hlength
      obtain ⟨ts₁, rfl, hderives, hmid⟩ := hsound _ _ _ _ (by omega) (rightPrecedence_le op) hright
      obtain ⟨l', hcombine, hstrength', hlevel⟩ :=
        derives_combine s hleft (hstrength op s _ rfl) hderives
      have hshorter : mid.length < k := by
        simp only [List.length_append] at hlength
        omega
      obtain ⟨ts₂, rfl, hfinal, hrest⟩ := ih mid.length hshorter (by omega) hcombine
        (hstrength' ▸ hmid) (Nat.le_trans hop hlevel) hclimbs rfl
      exact ⟨⟨.operator op, s⟩ :: ts₁ ++ ts₂, by simp, by simpa using hfinal, hrest⟩

/-- Whatever is read derives from the layer that its least precedence stands for. -/
theorem derives_of_reads (hle : least ≤ 30) (h : Reads fin least tokens u rest) :
    ∃ ts, tokens = ts ++ rest ∧ Derives (.ofPrecedence least) ts u ∧ Stops least rest := by
  have hsound (n : Nat) : SoundBelow α fin n := by
    induction n with
    | zero => exact fun _ _ _ _ hlength => absurd hlength (Nat.not_lt_zero _)
    | succ n ih =>
      intro least tokens rest u hlength hle h
      obtain ⟨left, mid, hoperand, hclimbs⟩ := reads_iff.mp h
      have hn : tokens.length ≤ n := Nat.lt_succ_iff.mp hlength
      have hmid : mid.length ≤ n := Nat.le_of_lt (Nat.lt_of_lt_of_le hoperand.length_lt hn)
      obtain ⟨l, ts, rfl, hts, hstrength, hlevel⟩ := derives_of_readsOperand ih hn hoperand
      obtain ⟨ts', rfl, hts', hrest⟩ :=
        derives_of_climbs ih hmid hts hstrength (hlevel ▸ hle) hclimbs
      exact ⟨ts ++ ts', by simp, hts', hrest⟩
  exact hsound (tokens.length + 1) least tokens rest u (Nat.lt_succ_self _) hle h

end Soundness

variable [Scalar α]

/-- The parser reads all tokens as an expression exactly when they are read up to the end. -/
theorem parseAll_eq_ok_iff_reads {fin : Nat} {tokens : Tokens α} {e : Expr α} :
    parseAll fin tokens = .ok e ↔ Reads fin 0 tokens e [] := by
  unfold parseAll Reads
  constructor
  · intro hok
    split_ifs at hok
    split at hok
    · contradiction
    · rename_i v hrest hread
      obtain rfl := Except.ok.inj hok
      exact ⟨hrest, hread⟩
    · contradiction
  · rintro ⟨hrest, hread⟩
    have hne : ¬tokens.isEmpty = true := by
      rintro hempty
      simp [List.isEmpty_iff.mp hempty] at hrest
    rw [if_neg hne, hread]

/-- Tokens that derive from a sum are accepted. -/
theorem Derives.parseAll_eq_ok {tokens : Tokens α} {e : Expr α} (h : Derives .sum tokens e)
    (fin : Nat) : parseAll fin tokens = .ok e := by
  have hreads : Reads fin 0 (tokens ++ []) e [] :=
    h.isRead.reads (by decide) (Nat.zero_le _) closed_nil stops_nil stops_nil
  rw [List.append_nil] at hreads
  exact parseAll_eq_ok_iff_reads.mpr hreads

/-- The grammar is unambiguous: tokens have at most one meaning as an expression. -/
theorem Derives.eq_of_sum {tokens : Tokens α} {u v : Expr α} (h : Derives .sum tokens u)
    (h' : Derives .sum tokens v) : u = v := by
  have hu := h.parseAll_eq_ok 0
  have hv := h'.parseAll_eq_ok 0
  exact Except.ok.inj (hu.symm.trans hv)

/-- Accepted tokens derive from a sum. -/
theorem derives_of_parseAll {fin : Nat} {tokens : Tokens α} {e : Expr α}
    (h : parseAll fin tokens = .ok e) : Derives .sum tokens e := by
  obtain ⟨ts, rfl, hts, -⟩ := derives_of_reads (Nat.zero_le _) (parseAll_eq_ok_iff_reads.mp h)
  rw [List.append_nil]
  exact hts

/-- The parser accepts exactly the tokens that derive from a sum, and builds their meaning. -/
theorem parseAll_eq_ok_iff (fin : Nat) (tokens : Tokens α) (e : Expr α) :
    parseAll fin tokens = .ok e ↔ Derives .sum tokens e :=
  ⟨derives_of_parseAll, fun h => h.parseAll_eq_ok fin⟩

end Parser

end ErrorBudget
