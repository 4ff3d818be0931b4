import ErrorBudget.Double
import ErrorBudget.Error.Kind
import ErrorBudget.Proofs.Solver.Steps

/-!
# Checks and diagnoses

A check ends with its first failure, a diagnosis goes on and collects the messages of all of them.
The two agree: a diagnosis finds nothing exactly when the check passes, and otherwise the first
thing that it finds is the failure that ends the check (`Validation.diagnose_agrees`).

Messages that are collected step by step begin with the failure of the steps in sequence, as long as
a step that passes leaves no message (`Begins.bind`). A diagnosis has one step that a check lacks:
it looks for variables with neither a value nor an error, before it looks at determinacy. Once all
residuals pass there are none, since a residual needs a value of every variable.
-/

set_option autoImplicit false

namespace ErrorBudget

namespace Validation

variable {α : Type} [Scalar α]

/-- Equations whose residuals pass have no variable without a value. -/
theorem missingVariables_eq_empty {tolerance : α} {equations : List (Equation α)}
    {values : Point α} (errors : Point α)
    (h : firstOf (residualFailures tolerance values equations) = .ok ()) :
    (missingVariables values errors (EquationSet.varsOf equations)).toList = [] := by
  have hsatisfied := residualFailuresFrom_eq_nil_iff.mp (firstOf_eq_ok_iff.mp h)
  refine List.eq_nil_iff_forall_not_mem.mpr fun x hx => ?_
  obtain ⟨hvar, hvalue, -⟩ := mem_missingVariables.mp (Std.ExtTreeSet.mem_toList.mp hx)
  obtain ⟨eq, heq, hxeq⟩ := EquationSet.mem_varsOf.mp hvar
  obtain ⟨residual, hresidual, -⟩ := hsatisfied eq heq
  exact hvalue (Equation.resolved_of_evaluate hresidual x hxeq)

variable [Numeral α]

/-- Messages that begin with the failure of a step; there are none if the step succeeds. -/
def Begins (messages : List String) : Except (Error α) Unit → Prop
  | .ok () => messages = []
  | .error e => messages.head? = some e.message

section Steps

variable {messages rest : List String} {step next : Except (Error α) Unit}

/-- The messages of a step begin with its failure. -/
theorem begins_messagesOf (step : Except (Error α) Unit) : Begins (messagesOf step) step := by
  cases step with
  | ok => rfl
  | error e => rfl

/-- The messages of some failures begin with the first one. -/
theorem begins_firstOf (failures : List (Error α)) :
    Begins (failures.map Error.message) (firstOf failures) := by
  cases failures with
  | nil => rfl
  | cons e failures => rfl

/-- Behind the messages of a step come those of the next one, which matter if the step succeeds. -/
theorem Begins.bind (h : Begins messages step) (hnext : step = .ok () → Begins rest next) :
    Begins (messages ++ rest) (step >>= fun _ => next) := by
  cases step with
  | ok =>
    obtain rfl : messages = [] := h
    exact hnext rfl
  | error e =>
    have hhead : messages.head? = some e.message := h
    show (messages ++ rest).head? = some e.message
    rw [List.head?_append, hhead, Option.some_or]

/-- There is no message exactly if the step succeeds. -/
theorem Begins.eq_nil_iff (h : Begins messages step) : messages = [] ↔ step = .ok () := by
  cases step with
  | ok => exact iff_of_true h rfl
  | error e =>
    have hhead : messages.head? = some e.message := h
    refine iff_of_false ?_ (by simp)
    rintro rfl
    simp at hhead

end Steps

variable (tolerance : α) (equations : List (Equation α)) (values errors : Point α)

/-- The messages of a diagnosis begin with the failure of the check. -/
theorem begins_diagnose :
    Begins (diagnose tolerance equations values errors).messages
      (check tolerance equations values errors) := by
  unfold diagnose check
  simp only [List.append_assoc]
  refine (begins_messagesOf _).bind fun _ => (begins_firstOf _).bind fun hresiduals => ?_
  rw [missingVariables_eq_empty errors hresiduals]
  exact begins_messagesOf _

/-- A diagnosis is fine exactly if the check passes, and otherwise its first message is that of the
failure with which the check ends. -/
theorem diagnose_agrees :
    ((diagnose tolerance equations values errors).ok = true ↔
      check tolerance equations values errors = .ok ()) ∧
    ∀ e, check tolerance equations values errors = .error e →
      (diagnose tolerance equations values errors).messages.head? = some e.message := by
  have hbegins := begins_diagnose tolerance equations values errors
  constructor
  · rw [← hbegins.eq_nil_iff, Report.ok, List.isEmpty_iff]
  · intro e he
    rw [he] at hbegins
    exact hbegins

/-- Values that satisfy `y = 3*x` and an area given by functions, without any error: there are more
unknown errors than equations, and a diagnosis says so first. -/
theorem diagnose_agrees_indeterminate :
    let area : Equation Float := .native "A - y*y"
      (fun p => p.getD "A" 0 - p.getD "y" 0 * p.getD "y" 0)
      (NameMap.ofEntries [("A", fun _ => 1), ("y", fun p => -2 * p.getD "y" 0)])
    let values : Point Float := NameMap.ofEntries [("x", 2), ("y", 6), ("A", 36)]
    ∃ (u : Expr Float) (e : Error Float), Expr.parseEquation {} "y = 3*x" = .ok u ∧
      check 0.01 [.ofExpr "y = 3*x" u, area] values ∅ = .error e ∧ e.kind = .indeterminate ∧
      (diagnose 0.01 [.ofExpr "y = 3*x" u, area] values ∅).messages.head? = some e.message := by
  intro area values
  have hread : (Expr.parseEquation {} "y = 3*x" : Except (Error Float) (Expr Float)).isOk = true :=
    by decide +kernel
  have hfails : (match Expr.parseEquation {} "y = 3*x" >>= fun u : Expr Float =>
      check 0.01 [.ofExpr "y = 3*x" u, area] values ∅ with
      | .ok () => false
      | .error e => e.kind == .indeterminate) = true := by decide +kernel
  obtain ⟨u, hu⟩ := exists_eq_ok_of_isOk hread
  rw [hu] at hfails
  split at hfails
  · contradiction
  · rename_i e he
    have hcheck : check 0.01 [.ofExpr "y = 3*x" u, area] values ∅ = .error e := he
    exact ⟨u, e, hu, hcheck, by simpa using hfails, (diagnose_agrees ..).2 e hcheck⟩

end Validation

end ErrorBudget
