import ErrorBudget.Double
import ErrorBudget.Proofs.Parser.Nesting
import ErrorBudget.Proofs.Parser.Steps
import Mathlib.Data.List.Basic

/-!
# Progress of the parser

Whatever the tokens are, the parser comes to an end, and what it accepts it takes off their front:
at least one token for an expression, and at least one for each argument of a call. It looks at a
single token behind those. So an expression is read in the same way whatever stands further behind
(`Parser.looksOneAhead_of_reads`), and it ends where this one token is no operator that binds as
strongly as asked for. All this holds at every position of a list of tokens and for every least
precedence (`Parser.parseExpr_progresses`).
-/

set_option autoImplicit false

namespace ErrorBudget

namespace Parser

variable {α : Type}

section Heads

variable {least : Nat} {ts rest rest' : Tokens α}

/-- Whether nothing is taken depends on the next token only. -/
theorem Stops.of_head? (h : Stops least rest) (hhead : rest'.head? = rest.head?) :
    Stops least rest' := by
  rintro op s tail rfl
  obtain ⟨behind, hrest⟩ := List.head?_eq_some_iff.mp hhead.symm
  exact h op s behind hrest

/-- Whether a name is called depends on the next token only. -/
theorem Closed.of_head? (h : Closed rest) (hhead : rest'.head? = rest.head?) : Closed rest' := by
  rintro s tail rfl
  obtain ⟨behind, hrest⟩ := List.head?_eq_some_iff.mp hhead.symm
  exact h s behind hrest

/-- Tokens in front hide all but the first one behind. -/
theorem head?_append_congr (ts : Tokens α) (hhead : rest'.head? = rest.head?) :
    (ts ++ rest').head? = (ts ++ rest).head? := by
  rw [List.head?_append, List.head?_append, hhead]

end Heads

/-- A step takes the tokens in front of `rest` off, and it does the same in front of all tokens that
begin like `rest`, wherever the text ends. That a step leaves `rest` behind is said by
`step fin tokens rest`. -/
def LooksOneAhead (step : Nat → Tokens α → Tokens α → Prop) (tokens rest : Tokens α) : Prop :=
  ∃ ts, tokens = ts ++ rest ∧
    ∀ fin rest', rest'.head? = rest.head? → step fin (ts ++ rest') rest'

variable [Scalar α] {fin least : Nat} {tokens rest : Tokens α} {left u : Expr α}

/-- What is read off less than `n` tokens depends on one token behind it, which does not go on. -/
def LooksOneAheadBelow (α : Type) [Scalar α] (n : Nat) : Prop :=
  ∀ fin least (tokens rest : Tokens α) u, tokens.length < n → Reads fin least tokens u rest →
    LooksOneAhead (Reads · least · u ·) tokens rest ∧ Stops least rest

section Steps

variable {n : Nat} (hahead : LooksOneAheadBelow α n) (hn : tokens.length ≤ n)

include hahead hn

/-- An operand looks at one token behind it. -/
theorem looksOneAhead_of_readsOperand (h : ReadsOperand fin tokens u rest) :
    LooksOneAhead (ReadsOperand · · u ·) tokens rest := by
  rcases tokens with _ | ⟨⟨token, s⟩, tail⟩
  · exact absurd h not_readsOperand_nil
  rw [List.length_cons] at hn
  -- What stands in parentheses or behind a sign is shorter, so it looks one token ahead; a closing
  -- parenthesis hides what follows it.
  cases token with
  | number x =>
    obtain ⟨rfl, rfl⟩ := (readsOperand_number x s).mp h
    exact ⟨[⟨.number x, s⟩], rfl, fun _ _ _ => (readsOperand_number x s).mpr ⟨rfl, rfl⟩⟩
  | identifier name =>
    by_cases hclosed : Closed tail
    · obtain ⟨rfl, rfl⟩ := (readsOperand_name name s hclosed).mp h
      refine ⟨[⟨.identifier name, s⟩], rfl, fun _ rest' hhead => ?_⟩
      exact (readsOperand_name name s (hclosed.of_head? hhead)).mpr ⟨rfl, rfl⟩
    · simp only [Closed, not_forall, ne_eq, not_not] at hclosed
      obtain ⟨s', tail, rfl⟩ := hclosed
      rw [List.length_cons] at hn
      obtain ⟨f, v, s'', hf, rfl, hread⟩ := (readsOperand_call name s s').mp h
      obtain ⟨⟨ts, rfl, hts⟩, -⟩ := hahead _ _ _ _ _ (by omega) hread
      refine ⟨⟨.identifier name, s⟩ :: ⟨.leftParen, s'⟩ :: ts ++ [⟨.rightParen, s''⟩], by simp,
        fun fin rest' _ => ?_⟩
      have harguments : Reads fin 0 (ts ++ ⟨.rightParen, s''⟩ :: rest') v
          (⟨.rightParen, s''⟩ :: rest') := hts fin _ rfl
      simpa using (readsOperand_call name s s').mpr ⟨f, v, s'', hf, rfl, harguments⟩
  | operator op =>
    cases op with
    | sub =>
      obtain ⟨v, hread, rfl⟩ := (readsOperand_neg s).mp h
      obtain ⟨⟨ts, rfl, hts⟩, -⟩ := hahead _ _ _ _ _ (by omega) hread
      refine ⟨⟨.operator .sub, s⟩ :: ts, rfl, fun fin rest' hhead => ?_⟩
      exact (readsOperand_neg s).mpr ⟨v, hts fin rest' hhead, rfl⟩
    | add =>
      obtain ⟨⟨ts, rfl, hts⟩, -⟩ := hahead _ _ _ _ _ (by omega) ((readsOperand_pos s).mp h)
      refine ⟨⟨.operator .add, s⟩ :: ts, rfl, fun fin rest' hhead => ?_⟩
      exact (readsOperand_pos s).mpr (hts fin rest' hhead)
    | _ => exact absurd h (not_readsOperand_operator s (by decide) (by decide))
  | leftParen =>
    obtain ⟨s', hread⟩ := (readsOperand_paren s).mp h
    obtain ⟨⟨ts, rfl, hts⟩, -⟩ := hahead _ _ _ _ _ (by omega) hread
    refine ⟨⟨.leftParen, s⟩ :: ts ++ [⟨.rightParen, s'⟩], by simp, fun fin rest' _ => ?_⟩
    have hinner : Reads fin 0 (ts ++ ⟨.rightParen, s'⟩ :: rest') u (⟨.rightParen, s'⟩ :: rest') :=
      hts fin _ rfl
    simpa using (readsOperand_paren s).mpr ⟨s', hinner⟩
  | rightParen => exact absurd h (not_readsOperand_rightParen s)
  | comma => exact absurd h (not_readsOperand_comma s)

/-- What goes on behind an operand looks at one token behind it, which is not taken. -/
theorem looksOneAhead_of_climbs (h : Climbs fin least left tokens u rest) :
    LooksOneAhead (Climbs · least left · u ·) tokens rest ∧ Stops least rest := by
  induction hlength : tokens.length using Nat.strongRecOn generalizing left tokens with
  | _ k ih =>
    by_cases hstops : Stops least tokens
    · obtain ⟨rfl, rfl⟩ := (climbs_of_stops hstops).mp h
      refine ⟨⟨[], rfl, fun fin rest' hhead => ?_⟩, hstops⟩
      exact (climbs_of_stops (hstops.of_head? hhead)).mpr ⟨rfl, rfl⟩
    · simp only [Stops, not_forall, Nat.not_lt] at hstops
      obtain ⟨op, s, tail, rfl, hop⟩ := hstops
      obtain ⟨right, mid, hright, hclimbs⟩ := (climbs_of_le s hop).mp h
      simp only [List.length_cons] at hn hlength
      obtain ⟨⟨ts₁, rfl, hts₁⟩, -⟩ := hahead _ _ _ _ _ (by omega) hright
      rw [List.length_append] at hn hlength
      obtain ⟨⟨ts₂, rfl, hts₂⟩, hrest⟩ := ih mid.length (by omega) (by omega) hclimbs rfl
      refine ⟨⟨⟨.operator op, s⟩ :: ts₁ ++ ts₂, by simp, fun fin rest' hhead => ?_⟩, hrest⟩
      have hmid := hts₁ fin (ts₂ ++ rest') (head?_append_congr ts₂ hhead)
      simpa using (climbs_of_le s hop).mpr ⟨right, _, hmid, hts₂ fin rest' hhead⟩

end Steps

/-- What is read depends on one token behind it, which is no operator that binds strongly enough. -/
theorem looksOneAhead_of_reads (h : Reads fin least tokens u rest) :
    LooksOneAhead (Reads · least · u ·) tokens rest ∧ Stops least rest := by
  have hahead (n : Nat) : LooksOneAheadBelow α n := by
    induction n with
    | zero => exact fun _ _ _ _ _ hlength => absurd hlength (Nat.not_lt_zero _)
    | succ n ih =>
      intro fin least tokens rest u hlength h
      have hn : tokens.length ≤ n := Nat.lt_succ_iff.mp hlength
      obtain ⟨left, mid, hoperand, hclimbs⟩ := reads_iff.mp h
      have hmid : mid.length ≤ n := Nat.le_of_lt (Nat.lt_of_lt_of_le hoperand.length_lt hn)
      obtain ⟨ts₁, rfl, hts₁⟩ := looksOneAhead_of_readsOperand ih hn hoperand
      obtain ⟨⟨ts₂, rfl, hts₂⟩, hrest⟩ := looksOneAhead_of_climbs ih hmid hclimbs
      refine ⟨⟨ts₁ ++ ts₂, by simp, fun fin rest' hhead => ?_⟩, hrest⟩
      have hmid := hts₁ fin (ts₂ ++ rest') (head?_append_congr ts₂ hhead)
      rw [List.append_assoc]
      exact reads_iff.mpr ⟨left, _, hmid, hts₂ fin rest' hhead⟩
  exact hahead (tokens.length + 1) fin least tokens rest u (Nat.lt_succ_self _) h

section Arguments

variable {us : List (Expr α)}

/-- Each argument takes a token, and behind the last one stands the parenthesis that closes. -/
theorem exists_of_readsSeries (h : ReadsSeries fin tokens us rest) :
    ∃ ts s, tokens = ts ++ ⟨.rightParen, s⟩ :: rest ∧ us.length ≤ ts.length := by
  induction us generalizing tokens with
  | nil => exact absurd h not_readsSeries_nil
  | cons u us ih =>
    rcases readsSeries_cons.mp h with ⟨rfl, s, hread⟩ | ⟨s, mid, hread, hseries⟩
    · obtain ⟨⟨ts, rfl, -⟩, -⟩ := looksOneAhead_of_reads hread
      have hlength := hread.1
      rw [List.length_append] at hlength
      exact ⟨ts, s, rfl, by simp only [List.length_cons, List.length_nil]; omega⟩
    · obtain ⟨⟨ts, rfl, -⟩, -⟩ := looksOneAhead_of_reads hread
      obtain ⟨ts', s', rfl, hle⟩ := ih hseries
      refine ⟨ts ++ ⟨.comma, s⟩ :: ts', s', by simp, ?_⟩
      simp only [List.length_append, List.length_cons]
      omega

/-- Arguments end with a parenthesis, and each of them takes a token. -/
theorem exists_of_readsArguments (h : ReadsArguments fin tokens us rest) :
    ∃ ts s, tokens = ts ++ ⟨.rightParen, s⟩ :: rest ∧ us.length ≤ ts.length := by
  rcases readsArguments_iff.mp h with ⟨rfl, s, rfl⟩ | hseries
  · exact ⟨[], s, rfl, Nat.le_refl 0⟩
  · exact exists_of_readsSeries hseries

end Arguments

section Positions

/-- The parser has gone on from position `i` to position `j`, and it has seen no token behind that
at `j`, which does not go on with an expression of the least precedence. -/
structure IsReadUpTo (least : Nat) (tokens : Tokens α) (i j : Nat) (u : Expr α) : Prop where
  advances : i < j
  within : j ≤ tokens.length
  stops : ∀ op s, tokens[j]? = some ⟨.operator op, s⟩ → op.precedence < least
  /-- Other tokens behind the position `j` change nothing. -/
  unseen : ∀ fin (tokens' : Tokens α), tokens'.take (j + 1) = tokens.take (j + 1) →
    Reads fin least (tokens'.drop i) u (tokens'.drop j)

omit [Scalar α] in
/-- Where a piece of some tokens ends. -/
theorem drop_eq_of_drop_eq_append {ts : Tokens α} {i : Nat} (h : tokens.drop i = ts ++ rest) :
    rest = tokens.drop (i + ts.length) := by
  rw [← List.drop_drop, h, List.drop_left]

/-- What is read ends at a later position. -/
theorem isReadUpTo_of_reads {i : Nat} (h : Reads fin least (tokens.drop i) u rest) :
    ∃ j, rest = tokens.drop j ∧ IsReadUpTo least tokens i j u := by
  obtain ⟨⟨ts, hdrop, hts⟩, hstops⟩ := looksOneAhead_of_reads h
  have hrest := drop_eq_of_drop_eq_append hdrop
  have hshorter := h.1
  have hlength := congrArg List.length hdrop
  rw [List.length_append] at hlength
  rw [List.length_drop] at hshorter hlength
  refine ⟨i + ts.length, hrest, by omega, by omega, fun op s hop => ?_, fun fin tokens' htake => ?_⟩
  · rw [← List.head?_drop, ← hrest] at hop
    obtain ⟨behind, hbehind⟩ := List.head?_eq_some_iff.mp hop
    exact hstops op s behind hbehind
  · have hhead : (tokens'.drop (i + ts.length)).head? = rest.head? := by
      have hnext := congrArg (·[i + ts.length]?) htake
      simpa [hrest, List.head?_drop, List.getElem?_take] using hnext
    have hfront : (tokens'.drop i).take ts.length = ts := by
      have htake' : tokens'.take (i + ts.length) = tokens.take (i + ts.length) := by
        simpa [List.take_take] using congrArg (List.take (i + ts.length)) htake
      rw [List.take_drop, htake', ← List.take_drop, hdrop, List.take_left]
    have hparts : tokens'.drop i = ts ++ tokens'.drop (i + ts.length) := by
      conv_lhs => rw [← List.take_append_drop ts.length (tokens'.drop i), hfront, List.drop_drop]
    rw [hparts]
    exact hts fin _ hhead

/-- At every position of some tokens the parser ends, for every least precedence. What it reads
there takes at least one token, ends where no operator follows that binds as strongly as asked for,
and depends on no token behind the next one. Arguments of a call take at least one token each, up to
the parenthesis that closes. -/
theorem parseExpr_progresses (fin least : Nat) (tokens : Tokens α) (i : Nat) :
    (∀ calls, 2 * (tokens.length - i) + 2 ≤ calls →
      parseExprWithin fin calls least (tokens.drop i) =
        .ended (plain (parseExpr fin least (tokens.drop i)))) ∧
      (∀ u rest h, parseExpr fin least (tokens.drop i) = .ok (u, ⟨rest, h⟩) →
        ∃ j, rest = tokens.drop j ∧ IsReadUpTo least tokens i j u) ∧
      (∀ calls, 2 * (tokens.length - i) + 4 ≤ calls →
        parseArgumentsWithin fin calls (tokens.drop i) =
          .ended (plain (parseArguments fin (tokens.drop i)))) ∧
      ∀ us rest h, parseArguments fin (tokens.drop i) = .ok (us, ⟨rest, h⟩) →
        ∃ j s, i + us.length ≤ j ∧ tokens[j]? = some ⟨.rightParen, s⟩ ∧
          rest = tokens.drop (j + 1) := by
  refine ⟨fun calls hcalls => ?_, fun u rest h hok => ?_, fun calls hcalls => ?_,
    fun us rest h hok => ?_⟩
  · exact parseExprWithin_eq fin least (by rwa [List.length_drop])
  · exact isReadUpTo_of_reads ⟨h, hok⟩
  · exact parseArgumentsWithin_eq fin (by rwa [List.length_drop])
  · obtain ⟨ts, s, hdrop, hle⟩ := exists_of_readsArguments ⟨h, hok⟩
    have hclose := drop_eq_of_drop_eq_append hdrop
    refine ⟨i + ts.length, s, by omega, ?_, ?_⟩
    · rw [← List.head?_drop, ← hclose, List.head?_cons]
    · rw [← List.drop_drop, ← hclose, List.drop_one, List.tail_cons]

/-- Behind the sum in `a + sqrt(x)**-y * b` a power is read as a factor, up to the product, and in
it one argument, up to its parenthesis. -/
theorem parseExpr_progresses_power :
    let tokens : Tokens Float := [⟨.identifier "a", ⟨0, 1⟩⟩, ⟨.operator .add, ⟨2, 3⟩⟩,
      ⟨.identifier "sqrt", ⟨4, 8⟩⟩, ⟨.leftParen, ⟨8, 9⟩⟩, ⟨.identifier "x", ⟨9, 10⟩⟩,
      ⟨.rightParen, ⟨10, 11⟩⟩, ⟨.operator .pow, ⟨11, 13⟩⟩, ⟨.operator .sub, ⟨13, 14⟩⟩,
      ⟨.identifier "y", ⟨14, 15⟩⟩, ⟨.operator .mul, ⟨16, 17⟩⟩, ⟨.identifier "b", ⟨18, 19⟩⟩]
    2 * (tokens.length - 2) + 2 ≤ 20 ∧
      parseExprWithin 19 20 21 (tokens.drop 2) = .ended (plain (parseExpr 19 21 (tokens.drop 2))) ∧
      (∃ u h, parseExpr 19 21 (tokens.drop 2) = .ok (u, ⟨tokens.drop 9, h⟩) ∧
        IsReadUpTo 21 tokens 2 9 u) ∧
      ∃ u h s, parseArguments 19 (tokens.drop 4) = .ok ([u], ⟨tokens.drop 6, h⟩) ∧
        4 + [u].length ≤ 5 ∧ tokens[5]? = some ⟨.rightParen, s⟩ := by
  intro tokens
  have hpower : (match parseExpr 19 21 (tokens.drop 2) with
      | .ok (_, ⟨rest, _⟩) => rest.length == 2
      | .error _ => false) = true := by decide +kernel
  have hargument : (match parseArguments 19 (tokens.drop 4) with
      | .ok (us, ⟨rest, _⟩) => us.length == 1 && rest.length == 5
      | .error _ => false) = true := by decide +kernel
  obtain ⟨hends, hreads, -, -⟩ := parseExpr_progresses 19 21 tokens 2
  obtain ⟨-, -, -, harguments⟩ := parseExpr_progresses 19 21 tokens 4
  have hcalls : 2 * (tokens.length - 2) + 2 ≤ 20 := by decide
  refine ⟨hcalls, hends 20 hcalls, ?_, ?_⟩
  · split at hpower
    · rename_i u rest hrest hok
      obtain ⟨j, rfl, hread⟩ := hreads u rest hrest hok
      have hlength : tokens.length = 11 := rfl
      have hj : j = 9 := by
        have hbehind : (tokens.drop j).length = 2 := by simpa using hpower
        rw [List.length_drop] at hbehind
        omega
      subst hj
      exact ⟨u, hrest, hok, hread⟩
    · contradiction
  · split at hargument
    · rename_i us rest hrest hok
      obtain ⟨j, s, hle, hclose, rfl⟩ := harguments us rest hrest hok
      simp only [Bool.and_eq_true, beq_iff_eq] at hargument
      obtain ⟨u, rfl⟩ := List.length_eq_one_iff.mp hargument.1
      have hj : j = 5 := by
        have hlength : tokens.length = 11 := rfl
        have hbehind := hargument.2
        rw [List.length_drop] at hbehind
        omega
      subst hj
      exact ⟨u, hrest, s, hok, hle, hclose⟩
    · contradiction

end Positions

end Parser

end ErrorBudget
