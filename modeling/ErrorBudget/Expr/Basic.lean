import ErrorBudget.Constant
import ErrorBudget.Func

/-!
# Expressions

The expressions that equations are made of: literals, variables, constants, calls of functions and
the five operations. `size` and `depth` measure the tree, `variables` collects its free variables,
and `substitute` replaces variables by expressions, all at once: a replacement is not looked into
again, so two variables can be exchanged.
-/

set_option autoImplicit false

namespace ErrorBudget

/-- An expression over numbers of type `α`. -/
inductive Expr (α : Type) where
  | number (x : α)
  | symbol (name : String)
  | constant (c : Constant)
  | call (f : Func) (u : Expr α)
  | add (u v : Expr α)
  | sub (u v : Expr α)
  | mul (u v : Expr α)
  | div (u v : Expr α)
  | pow (u v : Expr α)
  deriving BEq, Repr

namespace Expr

variable {α : Type}

/-- The number that an expression is, if it is a literal. -/
def number? : Expr α → Option α
  | number x => some x
  | _ => none

/-- The number of nodes of an expression. -/
def size : Expr α → Nat
  | number _ | symbol _ | constant _ => 1
  | call _ u => 1 + u.size
  | add u v | sub u v | mul u v | div u v | pow u v => 1 + u.size + v.size

/-- The number of nodes on the longest way from the root to a leaf. -/
def depth : Expr α → Nat
  | number _ | symbol _ | constant _ => 1
  | call _ u => 1 + u.depth
  | add u v | sub u v | mul u v | div u v | pow u v => 1 + max u.depth v.depth

/-- Whether a variable occurs in an expression. -/
def contains (x : String) : Expr α → Bool
  | number _ | constant _ => false
  | symbol name => name == x
  | call _ u => u.contains x
  | add u v | sub u v | mul u v | div u v | pow u v => u.contains x || v.contains x

/-- The free variables of an expression. -/
def vars : Expr α → NameSet
  | number _ | constant _ => ∅
  | symbol name => {name}
  | call _ u => u.vars
  | add u v | sub u v | mul u v | div u v | pow u v => u.vars ∪ v.vars

/-- The free variables to which a point gives no number, in increasing order. -/
def unresolved (e : Expr α) (p : Point α) : List String :=
  e.vars.toList.filter fun x => x ∉ p

/-- Replaces every variable that has a replacement; replacements are not looked into again. -/
def substitute (names : NameMap (Expr α)) : Expr α → Expr α
  | number x => number x
  | symbol name => names.getD name (symbol name)
  | constant c => constant c
  | call f u => call f (u.substitute names)
  | add u v => add (u.substitute names) (v.substitute names)
  | sub u v => sub (u.substitute names) (v.substitute names)
  | mul u v => mul (u.substitute names) (v.substitute names)
  | div u v => div (u.substitute names) (v.substitute names)
  | pow u v => pow (u.substitute names) (v.substitute names)

/-- An expression has at least one node. -/
theorem size_pos (e : Expr α) : 0 < e.size := by
  cases e <;> simp only [size] <;> omega

/-- A way from the root to a leaf has no more nodes than the whole expression. -/
theorem depth_le_size (e : Expr α) : e.depth ≤ e.size := by
  induction e <;> simp only [depth, size] <;> omega

/-- A variable occurs in an expression exactly when it is one of its free variables. -/
theorem contains_iff_mem_vars (x : String) (e : Expr α) :
    e.contains x = true ↔ x ∈ e.vars := by
  induction e with
  | number _ | constant _ => simp [contains, vars]
  | symbol name => simp [contains, vars]
  | call f u ih => simpa [contains, vars] using ih
  | add u v ihu ihv | sub u v ihu ihv | mul u v ihu ihv | div u v ihu ihv | pow u v ihu ihv =>
    simp [contains, vars, ihu, ihv]

/-- Without replacements nothing changes. -/
theorem substitute_empty (e : Expr α) : e.substitute ∅ = e := by
  induction e <;> simp_all [substitute]

section Literals

variable [Scalar α]

/-- Whether an expression is a literal so close to zero that it is dropped as a term. -/
def isNegligible : Expr α → Bool
  | number x => Scalar.negligible x
  | _ => false

/-- Whether an expression is a literal so close to one that it is dropped as a factor. -/
def isNearOne : Expr α → Bool
  | number x => Scalar.nearOne x
  | _ => false

/-- Whether an expression is the literal of exactly this number. -/
def isLiteral (x : α) : Expr α → Bool
  | number y => y == x
  | _ => false

end Literals

end Expr

end ErrorBudget
