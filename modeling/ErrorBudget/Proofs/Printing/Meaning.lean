import ErrorBudget.Expr.Parser
import ErrorBudget.Proofs.Double.Parts
import ErrorBudget.Proofs.Value

/-!
# Exact meanings

An `Interpretation` gives every expression an exact value in a commutative ring. Literals may stand
for any elements, as long as zero, one, negation and infinity mean what they say; quotients, powers
and functions may be anything. Two expressions agree (`Agrees`) if they have the same variables and
the same value under every interpretation in a ring.
-/

set_option autoImplicit false

namespace ErrorBudget

/-- What the parts of an expression mean in a commutative ring. -/
structure Interpretation (R : Type*) [CommRing R] where
  literal : Float → R
  symbol : String → R
  constant : Constant → R
  call : Func → R → R
  div : R → R → R
  pow : R → R → R
  literal_zero : literal 0 = 0
  literal_one : literal 1 = 1
  literal_neg : ∀ x : Float, x.isNaN = false → literal (-x) = -literal x
  literal_infinity : literal (1 / 0) = constant .infinity

namespace Interpretation

section Exact

open Float.Model

/-- The exact value of a finite number, and zero for any other. -/
def exactLiteral (x : Float) : ℚ :=
  match Double.parts x with
  | .finite .positive m e _ => m * 2 ^ e
  | .finite .negative m e _ => -(m * 2 ^ e)
  | _ => 0

/-- The exact value of a negated literal is the negated value. -/
theorem exactLiteral_neg (x : Float) : exactLiteral (-x) = -exactLiteral x := by
  unfold exactLiteral
  rw [Double.parts_neg]
  rcases Double.parts x with _ | _ | _ | ⟨_ | _, m, e, hpos⟩ <;> simp [UnpackedFloat.neg]

/-- The rational meaning at a point, in which literals have their exact values. What has no rational
value stands for zero. -/
def exact (p : String → ℚ) : Interpretation ℚ where
  literal := exactLiteral
  symbol := p
  constant _ := 0
  call _ _ := 0
  div := (· / ·)
  pow _ _ := 0
  literal_zero := by simp [exactLiteral, Double.parts_zero]
  literal_one := by norm_num [exactLiteral, Double.parts_one]
  literal_neg x _ := exactLiteral_neg x
  literal_infinity := by simp [exactLiteral, Double.parts_infinity]

end Exact

variable {R : Type*} [CommRing R] (I : Interpretation R)

/-- The value of an expression. -/
def value : Expr Float → R
  | .number x => I.literal x
  | .symbol name => I.symbol name
  | .constant c => I.constant c
  | .call f u => I.call f (value u)
  | .add u v => value u + value v
  | .sub u v => value u - value v
  | .mul u v => value u * value v
  | .div u v => I.div (value u) (value v)
  | .pow u v => I.pow (value u) (value v)

/-- The literal of minus one means minus one. -/
theorem literal_neg_one : I.literal (-1) = -1 := by
  rw [I.literal_neg 1 (by decide +kernel), I.literal_one]

/-- The literal of the negative zero means zero. -/
theorem literal_neg_zero : I.literal (-0) = 0 := by
  rw [I.literal_neg 0 (by decide +kernel), I.literal_zero, neg_zero]

end Interpretation

/-- The expression is not the literal of something that is no number. -/
def Expr.IsProper (e : Expr Float) : Prop :=
  e.RootIn fun x => x.isNaN = false

/-- Two expressions have the same variables and always the same value. -/
structure Agrees (R : Type*) [CommRing R] (u w : Expr Float) : Prop where
  contains : ∀ x, u.contains x = w.contains x
  value : ∀ I : Interpretation R, I.value u = I.value w
  proper : u.IsProper ↔ w.IsProper

namespace Agrees

variable {R : Type*} [CommRing R] {u u' v v' w : Expr Float}

/-- An expression agrees with itself. -/
theorem refl (u : Expr Float) : Agrees R u u :=
  ⟨fun _ => rfl, fun _ => rfl, Iff.rfl⟩

/-- Agreement can be turned around. -/
theorem symm (h : Agrees R u w) : Agrees R w u :=
  ⟨fun x => (h.contains x).symm, fun I => (h.value I).symm, h.proper.symm⟩

/-- What agrees with the same expression agrees with each other. -/
theorem trans (h : Agrees R u v) (h' : Agrees R v w) : Agrees R u w where
  contains x := (h.contains x).trans (h'.contains x)
  value I := (h.value I).trans (h'.value I)
  proper := h.proper.trans h'.proper

/-- Expressions that agree have the same variables. -/
theorem vars_eq (h : Agrees R u w) : u.vars = w.vars := by
  apply Std.ExtTreeSet.ext_mem
  intro x
  rw [← Expr.contains_iff_mem_vars, ← Expr.contains_iff_mem_vars, h.contains x]

/-- Arguments may be replaced by others that agree with them. -/
theorem call (f : Func) (h : Agrees R u u') : Agrees R (.call f u) (.call f u') :=
  ⟨fun x => h.contains x, fun I => congrArg (I.call f) (h.value I), Iff.rfl⟩

/-- Operands may be replaced by others that agree with them. -/
theorem combine (op : Operator) (h : Agrees R u u') (h' : Agrees R v v') :
    Agrees R (Parser.combine op u v) (Parser.combine op u' v') := by
  have hcontains (x : String) : (u.contains x || v.contains x) =
      (u'.contains x || v'.contains x) := by
    rw [h.contains x, h'.contains x]
  cases op with
  | add => exact ⟨hcontains, fun I => congrArg₂ (· + ·) (h.value I) (h'.value I), Iff.rfl⟩
  | sub => exact ⟨hcontains, fun I => congrArg₂ (· - ·) (h.value I) (h'.value I), Iff.rfl⟩
  | mul => exact ⟨hcontains, fun I => congrArg₂ (· * ·) (h.value I) (h'.value I), Iff.rfl⟩
  | div => exact ⟨hcontains, fun I => congrArg₂ I.div (h.value I) (h'.value I), Iff.rfl⟩
  | pow => exact ⟨hcontains, fun I => congrArg₂ I.pow (h.value I) (h'.value I), Iff.rfl⟩

section Rearranged

/-- Factors may be grouped to the left. -/
theorem mul_mul (u v w : Expr Float) : Agrees R (.mul (.mul u v) w) (.mul u (.mul v w)) :=
  ⟨fun _ => Bool.or_assoc .., fun _ => mul_assoc .., Iff.rfl⟩

/-- Terms may be grouped to the left. -/
theorem add_add (u v w : Expr Float) : Agrees R (.add (.add u v) w) (.add u (.add v w)) :=
  ⟨fun _ => Bool.or_assoc .., fun _ => add_assoc .., Iff.rfl⟩

/-- A sum in front of a difference may be grouped to the left. -/
theorem add_sub (u v w : Expr Float) : Agrees R (.sub (.add u v) w) (.add u (.sub v w)) :=
  ⟨fun _ => Bool.or_assoc .., fun _ => add_sub_assoc .., Iff.rfl⟩

/-- A difference is a sum with a negated term. -/
theorem sub_eq_add (u v : Expr Float) :
    Agrees R (.sub u v) (.add u (.mul (.number (-1)) v)) := by
  refine ⟨fun x => rfl, fun I => ?_, Iff.rfl⟩
  simp only [Interpretation.value, I.literal_neg_one]
  ring

/-- The sign of a literal, too, is a factor of minus one. -/
theorem negate {u : Expr Float} (hu : u.IsProper) :
    Agrees R u.negate (.mul (.number (-1)) u) := by
  cases u with
  | number x =>
    have hneg : (-x).isNaN = false := (Double.isNaN_neg x).trans hu
    refine ⟨fun y => rfl, fun I => ?_, iff_of_true hneg trivial⟩
    simp only [Expr.negate, Interpretation.value, I.literal_neg_one, I.literal_neg x hu]
    ring
  | _ => exact refl _

end Rearranged

end Agrees

end ErrorBudget
