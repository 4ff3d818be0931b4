import ErrorBudget.Proofs.Definition
import ErrorBudget.Proofs.EquationSet.Invariant

/-!
# What holds of everything that is stored

What is stored is what was read from a text, with its variables replaced, and a replacement is what
was read from another text, be it given by itself or in a definition. So if replacements satisfy
`R`, and what is read from the text of an equation satisfies `Q` after any replacements that satisfy
`R`, then every step preserves that all replacements of a set satisfy `R` and all its expressions
`Q` (`EquationSet.Satisfies.step`).
-/

set_option autoImplicit false

namespace ErrorBudget

namespace Edit

variable {α : Type} [Scalar α] {R : Expr α → Prop}

/-- Whether the replacements of an edit satisfy `R`. -/
def Replaces (R : Expr α → Prop) : Edit α → Prop
  | name _ replacement => ∀ e : Expr α, Expr.parse replacement = .ok e → R e
  | load text => ∀ d : Definition α, Definition.parse text = .ok d →
      ∀ (x : String) (e : Expr α), d.names[x]? = some e → R e
  | _ => True

/-- What holds of whatever is read holds of the replacements of every edit. -/
theorem replaces_of_parse (hR : ∀ (text : String) (e : Expr α), Expr.parse text = .ok e → R e)
    (edit : Edit α) : edit.Replaces R := by
  cases edit with
  | name old replacement => exact fun e he => hR replacement e he
  | load text =>
    intro d hd x e hx
    obtain ⟨read, hread⟩ := Definition.exists_text_of_getElem?_names hd hx
    exact hR read e hread
  | equation | native | combo | limits => trivial

end Edit

namespace EquationSet

variable {α : Type}

/-- All replacements of a set satisfy `R`, and all its expressions satisfy `Q`. -/
structure Satisfies (R Q : Expr α → Prop) (s : EquationSet α) : Prop where
  names : ∀ (x : String) (e : Expr α), s.names[x]? = some e → R e
  stored : ∀ (i : Nat) (eq : Equation α), s.get? i = some eq → ∀ e, eq.expr? = some e → Q e

section Steps

variable {R Q : Expr α → Prop} {s s' : EquationSet α}

/-- In a set that holds nothing everything stored satisfies everything. -/
theorem satisfies_of_empty {l : Limits} : (({} : EquationSet α).withLimits l).Satisfies R Q := by
  refine ⟨fun x e hx => ?_, fun i eq h => ?_⟩
  · simp [withLimits] at hx
  · simp [withLimits, get?] at h

variable [Scalar α] {edit : Edit α} {r : EditResult}

/-- A step adds replacements of its edit. -/
theorem Step.names_satisfy (h : s.Step edit r s') (hedit : edit.Replaces R)
    (hs : ∀ (x : String) (e : Expr α), s.names[x]? = some e → R e) :
    ∀ (x : String) (e : Expr α), s'.names[x]? = some e → R e := by
  cases h with
  | equation | native | combo | limits => exact hs
  | @load text d es hd hes hbelow =>
    intro x e hx
    have hunion : (s.names ∪ d.names)[x]? = some e := hx
    rw [Std.ExtTreeMap.getElem?_union] at hunion
    rcases Option.or_eq_some_iff.mp hunion with hnew | ⟨-, hold⟩
    · exact hedit d hd x e hnew
    · exact hs x e hold
  | @name old replacement e he =>
    intro x u hx
    dsimp only at hx
    rw [Std.ExtTreeMap.getElem?_insert] at hx
    split at hx
    · obtain rfl := Option.some.inj hx
      exact hedit e he
    · exact hs x u hx

/-- A step keeps that replacements satisfy `R` and expressions satisfy `Q`. -/
theorem Satisfies.step (hs : s.Satisfies R Q)
    (hQ : ∀ (names : NameMap (Expr α)) (text : String) (e : Expr α),
      (∀ (x : String) (r : Expr α), names[x]? = some r → R r) →
        Expr.parseEquation s.limits text = .ok e → Q (e.substitute names))
    (hedit : edit.Replaces R) (h : s.Step edit r s') : s'.Satisfies R Q := by
  have hnames := h.names_satisfy hedit hs.names
  refine ⟨hnames, fun i eq heq e he => ?_⟩
  rcases h.get?_eq_some heq with hold | hmade
  · exact hs.stored i eq hold e he
  · cases hmade with
    | @read _ text u hu =>
      obtain rfl := Option.some.inj he
      exact hQ _ text u hnames hu
    | given => contradiction

end Steps

end EquationSet

end ErrorBudget
