import ErrorBudget.Expr.Derivative
import ErrorBudget.Proofs.Value

/-!
# Leaves of a derivative

A derivative is made of the parts of the expression it is taken of. It has no variable and no
constant that the expression does not have (`LeavesIn.derive`), so it resolves wherever the
expression does. And when dropped terms leave nothing but a literal, this literal is zero, one or,
up to its sign, a literal of the expression (`rootIn_derive`).
-/

set_option autoImplicit false

namespace ErrorBudget

namespace Expr

variable {α : Type} [Scalar α]

section Leaves

variable {S : String → Prop} {C : Constant → Prop} {u v u' v' : Expr α}

/-- A negative has no other leaves. -/
theorem LeavesIn.negate (hu : u.LeavesIn S C) : (negate u).LeavesIn S C := by
  cases u with
  | number x => trivial
  | _ => exact ⟨trivial, hu⟩

/-- A square has no other leaves. -/
theorem LeavesIn.square (hu : u.LeavesIn S C) : (square u).LeavesIn S C :=
  ⟨hu, trivial⟩

/-- A sum has the leaves of its terms. -/
theorem LeavesIn.sum (hu : u.LeavesIn S C) (hv : v.LeavesIn S C) : (sum u v).LeavesIn S C := by
  unfold Expr.sum
  split_ifs
  · exact hv
  · exact hu
  · exact ⟨hu, hv⟩

/-- A difference has the leaves of its terms. -/
theorem LeavesIn.difference (hu : u.LeavesIn S C) (hv : v.LeavesIn S C) :
    (difference u v).LeavesIn S C := by
  unfold Expr.difference
  split_ifs
  · exact hu
  · exact hv.negate
  · exact ⟨hu, hv⟩

/-- A product has the leaves of its factors. -/
theorem LeavesIn.product (hu : u.LeavesIn S C) (hv : v.LeavesIn S C) :
    (product u v).LeavesIn S C := by
  unfold Expr.product
  split_ifs
  · trivial
  · exact hv
  · exact hu
  · exact ⟨hu, hv⟩

/-- A scaled product has the leaves of its factors. -/
theorem LeavesIn.scaled (hu : u.LeavesIn S C) (hv : v.LeavesIn S C) :
    (scaled u v).LeavesIn S C := by
  unfold Expr.scaled
  split_ifs
  · trivial
  · exact hv
  · exact hu
  · exact ⟨hu, hv⟩

/-- A quotient has the leaves of its parts. -/
theorem LeavesIn.quotient (hu : u.LeavesIn S C) (hv : v.LeavesIn S C) :
    (quotient u v).LeavesIn S C := by
  unfold Expr.quotient
  split_ifs
  · trivial
  · exact ⟨hu, hv⟩

/-- The rule of every function has the leaves of the argument and of its derivative. -/
theorem LeavesIn.chain (f : Func) (hu : u.LeavesIn S C) (hu' : u'.LeavesIn S C) :
    (chain f u u').LeavesIn S C := by
  have hone : (one : Expr α).LeavesIn S C := trivial
  cases f with
  | sin | cosh | sinh | exp | abs => exact LeavesIn.scaled hu hu'
  | cos => exact LeavesIn.scaled (LeavesIn.negate hu) hu'
  | tan => exact LeavesIn.scaled (LeavesIn.square hu) hu'
  | cot => exact LeavesIn.scaled (LeavesIn.negate (LeavesIn.square hu)) hu'
  | sec => exact LeavesIn.scaled ⟨hu, hu⟩ hu'
  | csc => exact LeavesIn.scaled (LeavesIn.negate ⟨hu, hu⟩) hu'
  | asin => exact LeavesIn.quotient hu' ⟨hone, hu.square⟩
  | acos => exact LeavesIn.quotient hu'.negate ⟨hone, hu.square⟩
  | atan | atanh => exact LeavesIn.quotient hu' ⟨hone, hu.square⟩
  | tanh => exact LeavesIn.scaled ⟨hone, LeavesIn.square hu⟩ hu'
  | asinh | acosh => exact LeavesIn.quotient hu' ⟨hu.square, hone⟩
  | log | ln => exact LeavesIn.quotient hu' hu
  | sqrt => exact LeavesIn.quotient hu' ⟨trivial, hu⟩
  | sign => trivial

/-- The quotient rule has the leaves of the parts and of their derivatives. -/
theorem LeavesIn.quotientRule (hu : u.LeavesIn S C) (hv : v.LeavesIn S C)
    (hu' : u'.LeavesIn S C) (hv' : v'.LeavesIn S C) : (quotientRule u v u' v').LeavesIn S C := by
  have hleft := hu'.product hv
  have hright := hu.product hv'
  unfold Expr.quotientRule
  split_ifs
  · trivial
  · exact hu'
  · exact ⟨hu', hv⟩
  · exact ⟨by split_ifs; exacts [hright.negate, ⟨hleft, hright⟩], hv.square⟩

/-- A power with its exponent lowered has the leaves of its parts. -/
theorem LeavesIn.lowered (hu : u.LeavesIn S C) (hv : v.LeavesIn S C) :
    (lowered u v).LeavesIn S C := by
  cases v with
  | number n =>
    rw [Expr.lowered]
    split_ifs
    · exact hu
    · exact ⟨hu, trivial⟩
  | _ => exact ⟨hu, hv, trivial⟩

/-- The power rule has the leaves of the power and of the derivative of its base. -/
theorem LeavesIn.powerRule (hu : u.LeavesIn S C) (hv : v.LeavesIn S C) (hu' : u'.LeavesIn S C) :
    (powerRule u v u').LeavesIn S C := by
  unfold Expr.powerRule
  split_ifs
  · trivial
  · trivial
  · exact hu'
  · exact hv.product ((hu.lowered hv).product hu')

/-- The rule for varying exponents has the leaves of the power and of both derivatives. -/
theorem LeavesIn.exponentRule (hu : u.LeavesIn S C) (hv : v.LeavesIn S C)
    (hu' : u'.LeavesIn S C) (hv' : v'.LeavesIn S C) : (exponentRule u v u' v').LeavesIn S C := by
  have hleft : (Expr.product v' (call .log u)).LeavesIn S C := hv'.product hu
  refine LeavesIn.product ⟨hu, hv⟩ (hleft.sum ?_)
  split_ifs
  · trivial
  · exact hv.product ⟨hu', hu⟩

/-- A derivative has no leaf that the expression does not have, apart from literals. -/
theorem LeavesIn.derive {e : Expr α} (h : e.LeavesIn S C) (x : String) :
    (e.derive x).LeavesIn S C := by
  induction e with
  | number c | constant c => trivial
  | symbol name =>
    unfold Expr.derive
    split_ifs
    · trivial
    · trivial
  | call f u ih =>
    unfold Expr.derive
    split_ifs
    · exact LeavesIn.chain f h (ih h)
    · trivial
  | add u v ihu ihv => exact (ihu h.1).sum (ihv h.2)
  | sub u v ihu ihv => exact (ihu h.1).difference (ihv h.2)
  | mul u v ihu ihv => exact ((ihu h.1).product h.2).sum (h.1.product (ihv h.2))
  | div u v ihu ihv => exact LeavesIn.quotientRule h.1 h.2 (ihu h.1) (ihv h.2)
  | pow u v ihu ihv =>
    unfold Expr.derive
    split_ifs
    · exact LeavesIn.exponentRule h.1 h.2 (ihu h.1) (ihv h.2)
    · exact LeavesIn.powerRule h.1 h.2 (ihu h.1)

/-- A derivative has no variable that the expression does not have. -/
theorem contains_of_contains_derive {e : Expr α} {x y : String}
    (h : (e.derive x).contains y = true) : e.contains y = true :=
  (LeavesIn.derive e.leavesIn_contains x).of_contains h

/-- A derivative resolves at every point where the expression does. -/
theorem Resolves.derive {p : Point α} {e : Expr α} (h : e.Resolves p) (x : String) :
    (e.derive x).Resolves p :=
  LeavesIn.derive h x

end Leaves

section Roots

/-- Literals among which the rules of differentiation stay. -/
structure IsLiteralClass (L : α → Prop) : Prop where
  zero : L 0
  one : L 1
  neg : ∀ {c}, L c → L (-c)

variable {L : α → Prop} {u v u' v' : Expr α}

/-- The negative of a literal of the class is one of the class. -/
theorem RootIn.negate (hL : IsLiteralClass L) (hu : u.RootIn L) : (negate u).RootIn L := by
  cases u with
  | number c => exact hL.neg hu
  | _ => trivial

/-- A sum that is a literal is one of its terms. -/
theorem RootIn.sum (hu : u.RootIn L) (hv : v.RootIn L) : (sum u v).RootIn L := by
  unfold Expr.sum
  split_ifs
  · exact hv
  · exact hu
  · trivial

/-- A difference that is a literal is one of its terms, or the negative of one. -/
theorem RootIn.difference (hL : IsLiteralClass L) (hu : u.RootIn L) (hv : v.RootIn L) :
    (difference u v).RootIn L := by
  unfold Expr.difference
  split_ifs
  · exact hu
  · exact hv.negate hL
  · trivial

/-- A product that is a literal is zero or one of its factors. -/
theorem RootIn.product (hL : IsLiteralClass L) (hu : u.RootIn L) (hv : v.RootIn L) :
    (product u v).RootIn L := by
  unfold Expr.product
  split_ifs
  · exact hL.zero
  · exact hv
  · exact hu
  · trivial

/-- A scaled product that is a literal is zero or one of its factors. -/
theorem RootIn.scaled (hL : IsLiteralClass L) (hu : u.RootIn L) (hv : v.RootIn L) :
    (scaled u v).RootIn L := by
  unfold Expr.scaled
  split_ifs
  · exact hL.zero
  · exact hv
  · exact hu
  · trivial

/-- A quotient that is a literal is zero. -/
theorem RootIn.quotient (hL : IsLiteralClass L) : (quotient u v).RootIn L := by
  unfold Expr.quotient
  split_ifs
  · exact hL.zero
  · trivial

/-- A chain rule that gives a literal gives zero or the derivative of the argument. -/
theorem RootIn.chain (hL : IsLiteralClass L) (f : Func) (hu' : u'.RootIn L) :
    (chain f u u').RootIn L := by
  cases f with
  | asin | acos | atan | asinh | acosh | atanh | log | ln | sqrt => exact RootIn.quotient hL
  | sign => exact hL.zero
  | _ => exact RootIn.scaled hL trivial hu'

/-- A quotient rule that gives a literal gives zero or the derivative of the numerator. -/
theorem RootIn.quotientRule (hL : IsLiteralClass L) (hu' : u'.RootIn L) :
    (quotientRule u v u' v').RootIn L := by
  unfold Expr.quotientRule
  split_ifs
  · exact hL.zero
  · exact hu'
  · trivial
  · trivial

/-- A power with its exponent lowered is a literal only if it is the base. -/
theorem RootIn.lowered (hu : u.RootIn L) : (lowered u v).RootIn L := by
  cases v with
  | number n =>
    rw [Expr.lowered]
    split_ifs
    · exact hu
    · trivial
  | _ => trivial

/-- A power rule that gives a literal gives one of the class. -/
theorem RootIn.powerRule (hL : IsLiteralClass L) (hu : u.RootIn L) (hv : v.RootIn L)
    (hu' : u'.RootIn L) : (powerRule u v u').RootIn L := by
  unfold Expr.powerRule
  split_ifs
  · exact hL.zero
  · exact hL.zero
  · exact hu'
  · exact hv.product hL (hu.lowered.product hL hu')

/-- A rule for varying exponents that gives a literal gives one of the class. -/
theorem RootIn.exponentRule (hL : IsLiteralClass L) (hv : v.RootIn L) (hv' : v'.RootIn L) :
    (exponentRule u v u' v').RootIn L := by
  have hlog : (call .log u).RootIn L := trivial
  have hquotient : (div u' u).RootIn L := trivial
  refine RootIn.product hL trivial ((hv'.product hL hlog).sum ?_)
  split_ifs
  · exact hL.zero
  · exact hv.product hL hquotient

/-- A derivative that is a literal is one of the literals of the expression, up to its sign, or zero
or one. -/
theorem rootIn_derive (hL : IsLiteralClass L) {e : Expr α} (h : e.LiteralsIn L) (x : String) :
    (e.derive x).RootIn L := by
  induction e with
  | number c | constant c => exact hL.zero
  | symbol name =>
    unfold derive
    split_ifs
    · exact hL.one
    · exact hL.zero
  | call f u ih =>
    unfold derive
    split_ifs
    · exact RootIn.chain hL f (ih h)
    · exact hL.zero
  | add u v ihu ihv => exact (ihu h.1).sum (ihv h.2)
  | sub u v ihu ihv => exact (ihu h.1).difference hL (ihv h.2)
  | mul u v ihu ihv =>
    exact ((ihu h.1).product hL h.2.rootIn).sum (h.1.rootIn.product hL (ihv h.2))
  | div u v ihu ihv => exact RootIn.quotientRule hL (ihu h.1)
  | pow u v ihu ihv =>
    unfold derive
    split_ifs
    · exact RootIn.exponentRule hL h.2.rootIn (ihv h.2)
    · exact RootIn.powerRule hL h.1.rootIn h.2.rootIn (ihu h.1)

end Roots

end Expr

end ErrorBudget
