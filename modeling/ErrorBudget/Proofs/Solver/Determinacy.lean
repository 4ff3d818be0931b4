import ErrorBudget.Double
import ErrorBudget.Proofs.Solver.Completeness

/-!
# Following the advice

A system is refused if it has not as many unknown errors as equations, and the refusal comes with an
advice: to give errors to some number of the unknown variables, or to take away the errors of some
number of the known ones. If every variable has a value, then each variable is either known or
unknown (`Partition.length_known_add_length_unknown`), and what is chosen moves from the one group
to the other (`Advice.Follows.unknown_eq`, `Advice.Follows.known_eq`). So the advice can be
followed, and whatever variables are chosen, the system is determinate afterwards
(`Advice.checkDeterminacy_of_follows`).
-/

set_option autoImplicit false

namespace ErrorBudget

/-- Names without repetition leave a list without repetition shorter by their number. -/
theorem length_filter_not_mem {names chosen : List String} (hnames : names.Nodup)
    (hchosen : chosen.Nodup) (hsub : chosen ⊆ names) :
    (names.filter fun x => x ∉ chosen).length + chosen.length = names.length := by
  have hperm : (names.filter fun x => x ∈ chosen).Perm chosen := by
    refine (List.perm_ext_iff_of_nodup (hnames.filter _) hchosen).mpr fun x => ?_
    rw [List.mem_filter, decide_eq_true_eq]
    exact and_iff_right_of_imp fun hx => hsub hx
  have hsplit := names.length_eq_length_filter_add fun x => decide (x ∈ chosen)
  simp only [← decide_not] at hsplit
  rw [hperm.length_eq] at hsplit
  omega

namespace Advice

variable {α : Type}

/-- How many variables an advice asks for. -/
def count : Advice → Nat
  | addErrors n _ | removeErrors n _ => n

/-- The variables that an advice leaves to choose from. -/
def names : Advice → List String
  | addErrors _ names | removeErrors _ names => names

/-- An advice is followed with the variables `chosen`: they have an error afterwards, whatever it
is, or none any more, and the errors of all others are as before. -/
inductive Follows (chosen : List String) (errors : Point α) : Advice → Point α → Prop
  | add {n names errors'} (hchosen : ∀ x ∈ chosen, x ∈ errors')
      (hothers : ∀ x ∉ chosen, errors'[x]? = errors[x]?) :
      Follows chosen errors (.addErrors n names) errors'
  | remove {n names errors'} (hchosen : ∀ x ∈ chosen, x ∉ errors')
      (hothers : ∀ x ∉ chosen, errors'[x]? = errors[x]?) :
      Follows chosen errors (.removeErrors n names) errors'

namespace Follows

variable {chosen names : List String} {values errors errors' : Point α} {vars : NameSet} {n : Nat}

/-- Variables that are given errors are not unknown any more. -/
theorem unknown_eq (h : Follows chosen errors (.addErrors n names) errors') :
    (Partition.ofInputs values errors' vars).unknown =
      (Partition.ofInputs values errors vars).unknown.filter fun x => x ∉ chosen := by
  cases h with
  | add hchosen hothers =>
    have herrors (x : String) : x ∈ errors' ↔ x ∈ chosen ∨ x ∈ errors := by
      by_cases hx : x ∈ chosen
      · exact iff_of_true (hchosen x hx) (.inl hx)
      · rw [NameMap.mem_congr (hothers x hx), or_iff_right hx]
    simp only [Partition.ofInputs, List.filter_filter, ← Bool.decide_and]
    refine List.filter_congr fun x _ => decide_eq_decide.mpr ?_
    rw [herrors, not_or]
    exact and_left_comm

/-- Variables whose errors are taken away are not known any more. -/
theorem known_eq (h : Follows chosen errors (.removeErrors n names) errors') :
    (Partition.ofInputs values errors' vars).known =
      (Partition.ofInputs values errors vars).known.filter fun x => x ∉ chosen := by
  cases h with
  | remove hchosen hothers =>
    have herrors (x : String) : x ∈ errors' ↔ x ∉ chosen ∧ x ∈ errors := by
      by_cases hx : x ∈ chosen
      · exact iff_of_false (hchosen x hx) fun hboth => hboth.1 hx
      · rw [NameMap.mem_congr (hothers x hx), and_iff_right hx]
    simp only [Partition.ofInputs, List.filter_filter, ← Bool.decide_and]
    exact List.filter_congr fun x _ => decide_eq_decide.mpr (herrors x)

end Follows

end Advice

namespace Partition

variable {α : Type} {values : Point α} {vars : NameSet}

/-- If every variable has a value, then it is either known or unknown. -/
theorem length_known_add_length_unknown (hvalues : ∀ x ∈ vars, x ∈ values) (errors : Point α) :
    (ofInputs values errors vars).known.length + (ofInputs values errors vars).unknown.length =
      vars.size := by
  have hunknown : (ofInputs values errors vars).unknown =
      vars.toList.filter fun x => !decide (x ∈ errors) := by
    refine List.filter_congr fun x hx => ?_
    have hvalue : x ∈ values := hvalues x (Std.ExtTreeSet.mem_toList.mp hx)
    simp [hvalue]
  rw [hunknown, ← Std.ExtTreeSet.length_toList]
  exact (vars.toList.length_eq_length_filter_add fun x => decide (x ∈ errors)).symm

end Partition

namespace Advice

open ErrorBudget.Partition

variable {α : Type} {equations : List (Equation α)} {values errors : Point α} {e : Error α}

/-- If every variable of the equations has a value and there are at least as many variables as
equations, then a refusal asks for no more variables than it lists, and the system is determinate
once the advice has been followed, with whatever variables of the list. -/
theorem checkDeterminacy_of_follows
    (hcount : equations.length ≤ (EquationSet.varsOf equations).size)
    (hvalues : ∀ x ∈ EquationSet.varsOf equations, x ∈ values)
    (h : (ofEquations equations values errors).checkDeterminacy equations.length = .error e) :
    ∃ unknowns a, e = .indeterminate equations.length unknowns a ∧ a.count ≤ a.names.length ∧
      ∀ chosen errors', chosen.Nodup → chosen ⊆ a.names → chosen.length = a.count →
        Follows chosen errors a errors' →
        ((ofEquations equations values errors').checkDeterminacy equations.length :
          Except (Error α) Unit) = .ok () := by
  have htotal := length_known_add_length_unknown hvalues
  obtain ⟨hunknown, hknown, -⟩ :=
    List.nodup_append.mp (nodup_columns values errors (EquationSet.varsOf equations))
  unfold checkDeterminacy at h
  split at h
  · contradiction
  · rename_i hindeterminate
    refine ⟨_, _, (Except.error.inj h).symm, ?_⟩
    simp only [checkDeterminacy_eq_ok_iff]
    unfold ofEquations at hindeterminate ⊢
    have hbefore := htotal errors
    unfold Partition.advice
    dsimp only
    split
    · -- Too few unknown errors: known variables become unknown.
      simp only [count, names]
      refine ⟨by omega, fun chosen errors' hnodup hsub hlength hfollows => ?_⟩
      have hafter := htotal errors'
      have hmoved := length_filter_not_mem hknown hnodup hsub
      rw [hfollows.known_eq] at hafter
      omega
    · -- Too many unknown errors: unknown variables become known.
      simp only [count, names]
      refine ⟨by omega, fun chosen errors' hnodup hsub hlength hfollows => ?_⟩
      have hmoved := length_filter_not_mem hunknown hnodup hsub
      rw [hfollows.unknown_eq]
      omega

/-- With errors of `A`, `V` and `h` there are too many for the area and the volume of a cylinder:
one of the three has to go, and it may be the error of `A`. -/
theorem checkDeterminacy_of_follows_cylinder :
    let area : Equation Float := .native "A - pi*r^2"
      (fun p => p.getD "A" 0 - Scalar.pi * p.getD "r" 0 * p.getD "r" 0)
      (NameMap.ofEntries [("A", fun _ => 1), ("r", fun p => -2 * Scalar.pi * p.getD "r" 0)])
    let volume : Equation Float := .native "V - A*h"
      (fun p => p.getD "V" 0 - p.getD "A" 0 * p.getD "h" 0)
      (NameMap.ofEntries [("A", fun p => -p.getD "h" 0), ("V", fun _ => 1),
        ("h", fun p => -p.getD "A" 0)])
    let values : Point Float := NameMap.ofEntries [("A", 78.5), ("V", 942), ("h", 12), ("r", 5)]
    let errors : Point Float := NameMap.ofEntries [("A", 1), ("V", 9), ("h", 0.05)]
    let a : Advice := .removeErrors 1 ["A", "V", "h"]
    [area, volume].length ≤ (EquationSet.varsOf [area, volume]).size ∧
      (∀ x ∈ EquationSet.varsOf [area, volume], x ∈ values) ∧
      ((ofEquations [area, volume] values errors).checkDeterminacy 2 : Except (Error Float) Unit) =
        .error (.indeterminate 2 1 a) ∧
      a.count ≤ a.names.length ∧ Follows ["A"] errors a (errors.erase "A") ∧
      ((ofEquations [area, volume] values (errors.erase "A")).checkDeterminacy 2 :
        Except (Error Float) Unit) = .ok () := by
  intro area volume values errors a
  have hvars : EquationSet.varsOf [area, volume] = NameSet.ofNames ["A", "V", "h", "r"] := by
    decide +kernel
  have hcount : [area, volume].length ≤ (EquationSet.varsOf [area, volume]).size := by
    rw [hvars]
    decide +kernel
  have hvalues : ∀ x ∈ EquationSet.varsOf [area, volume], x ∈ values := by
    rw [hvars]
    intro x hx
    simpa [values, NameMap.ofEntries] using hx
  have hgroups : ofEquations [area, volume] values errors = ⟨["A", "V", "h"], ["r"]⟩ := by
    decide +kernel
  have hrefused : ((ofEquations [area, volume] values errors).checkDeterminacy 2 :
      Except (Error Float) Unit) = .error (.indeterminate 2 1 a) := by
    rw [hgroups]
    rfl
  have hfollows : Follows ["A"] errors a (errors.erase "A") := by
    refine .remove (by simp) fun x hx => ?_
    have hne : "A" ≠ x := fun heq => hx (heq ▸ List.mem_singleton_self _)
    simp [Std.ExtTreeMap.getElem?_erase, hne]
  obtain ⟨unknowns, b, hb, hle, hdeterminate⟩ :=
    checkDeterminacy_of_follows hcount hvalues hrefused
  obtain ⟨-, -, rfl⟩ := Error.indeterminate.inj hb
  exact ⟨hcount, hvalues, hrefused, hle, hfollows,
    hdeterminate ["A"] _ (by decide) (by decide) rfl hfollows⟩

end Advice

end ErrorBudget
