import ErrorBudget.Proofs.Parser.Equation
import ErrorBudget.Proofs.Printing.RoundTrip
import ErrorBudget.Proofs.Token.Places

/-!
# Names in what is read

Whatever is read from a text has only variables that can be read alone: the name of each is an
identifier and belongs to no constant (`Expr.leavesIn_of_read`). Read alone, such a name is the
variable (`Expr.parse_name`).
-/

set_option autoImplicit false

namespace ErrorBudget

variable {α : Type}

namespace Token

/-- Every identifier among some tokens is written with the characters of one. -/
def HaveNames (tokens : List (Placed (Token α))) : Prop :=
  ∀ name s, ⟨.identifier name, s⟩ ∈ tokens → IsIdentifier name

/-- Some of the tokens have names if all of them do. -/
theorem HaveNames.mono {ts ts' : List (Placed (Token α))} (h : HaveNames ts') (hsub : ts ⊆ ts') :
    HaveNames ts :=
  fun name s hmem => h name s (hsub hmem)

/-- The identifiers that a text is cut into are written with the characters of one. -/
theorem haveNames_of_lex [Scalar α] {start : Nat} {cs : List Char}
    {tokens : List (Placed (Token α))} (h : lex start cs = .ok tokens) : HaveNames tokens := by
  intro name s hmem
  obtain ⟨_, _, _, -, -, hspelled, -⟩ := (isTaken_of_lex h _ hmem).exists_piece
  cases hspelled with
  | identifier hname => exact hname

end Token

namespace Parser

open Token

variable [Scalar α] {l : Layer} {ts : Tokens α} {u : Expr α}

/-- The meaning of tokens has variables only where the tokens have identifiers. -/
theorem Derives.leavesIn (h : Derives l ts u) (hnames : HaveNames ts) :
    u.LeavesIn Expr.IsVariableName fun _ => True := by
  induction h with
  | term _ ih | factor _ ih | unsigned _ ih | base _ ih => exact ih hnames
  | add s _ _ ih ih' | sub s _ _ ih ih' | mul s _ _ ih ih' | div s _ _ ih ih' | pow s _ _ ih ih' =>
    constructor
    · exact ih (hnames.mono (List.subset_append_left _ _))
    · exact ih' (hnames.mono (by simp))
  | negLiteral | number | constant => trivial
  | neg s _ _ ih => exact ⟨trivial, ih (hnames.mono (List.subset_cons_self _ _))⟩
  | pos s _ ih => exact ih (hnames.mono (List.subset_cons_self _ _))
  | symbol s hc => exact ⟨hnames _ s List.mem_cons_self, hc⟩
  | call s s' s'' _ _ ih =>
    refine ih (hnames.mono ?_)
    intro t ht
    simp [ht]
  | paren s s' _ ih => exact ih (hnames.mono (by simp))

end Parser

namespace Expr

open ErrorBudget.Token ErrorBudget.Parser

variable [Scalar α] {e : Expr α} {l : Limits} {input x : String}

/-- The variables of what is read can be read alone. -/
theorem leavesIn_of_read {start : Nat} {cs : List Char} (h : read start cs = .ok e) :
    e.LeavesIn IsVariableName fun _ => True := by
  unfold read at h
  split at h
  · contradiction
  · rename_i tokens hlex
    exact (derives_of_parseAll h).leavesIn (haveNames_of_lex hlex)

/-- The symbols of an expression that is read are names of variables. -/
theorem leavesIn_of_parse (h : parse input = .ok e) :
    e.LeavesIn IsVariableName fun _ => True :=
  leavesIn_of_read (parseSide_eq_ok_iff.mp h).1

/-- The symbols of an equation that is read are names of variables. -/
theorem leavesIn_of_parseEquation (h : parseEquation l input = .ok e) :
    e.LeavesIn IsVariableName fun _ => True := by
  obtain ⟨hform, -⟩ := parseEquation_eq_ok_iff.mp h
  generalize input.toList = cs at hform
  cases hform with
  | expression _ he => exact leavesIn_of_read he
  | difference _ _ hu hv => exact ⟨leavesIn_of_read hu, leavesIn_of_read hv⟩

/-- The name of a variable is read as the variable. -/
theorem parse_name (hx : IsVariableName x) :
    (parse x : Except (ParseError α) (Expr α)) = .ok (.symbol x) := by
  obtain ⟨s, stop, hlexes⟩ := lexes_identifier (α := α) hx.1 apart_nil 0
  have hderives : Derives (α := α) .atom [⟨.identifier x, s⟩] (.symbol x) := .symbol s hx.2
  have hread : (read 0 x.toList : Except _ (Expr α)) = .ok (.symbol x) := by
    rw [read, hlexes.lex_eq_ok]
    exact hderives.sum.parseAll_eq_ok _
  rw [parse, parseSide, hread]
  rfl

end Expr

end ErrorBudget
