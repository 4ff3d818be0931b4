import ErrorBudget.Expr.Derivative
import ErrorBudget.Proofs.Expr.Tree.Variables

/-!
# Derivatives of trees

The rules of differentiation on trees. They look a function up under the name of the call, take the
first of its arguments and the first of their derivatives, and build new calls by writing the names
of other functions. So three things can go wrong: a call that no function has the name of becomes an
undefined number, a call without arguments has no derivative, and a rule that writes a name under
which there is no function makes a tree that is not well-formed.

None of it happens to the tree of an expression: its derivative is the tree of the derivative of the
expression (`Expr.derive_tree`), for which every name that a rule writes is compared with the name
of the function that is meant (`Expr.tree_chain`).
-/

set_option autoImplicit false

namespace ErrorBudget

namespace Tree

variable {α : Type} [Scalar α]

/-- Whether a tree is a literal so close to zero that it is dropped as a term. -/
def isNegligible : Tree α → Bool
  | number x => Scalar.negligible x
  | _ => false

/-- Whether a tree is a literal so close to one that it is dropped as a factor. -/
def isNearOne : Tree α → Bool
  | number x => Scalar.nearOne x
  | _ => false

/-- Whether a tree is the literal of exactly this number. -/
def isLiteral (x : α) : Tree α → Bool
  | number y => y == x
  | _ => false

/-- The literal zero. -/
def zero : Tree α := number 0

/-- The literal one. -/
def one : Tree α := number 1

omit [Scalar α] in
/-- A call with one argument. -/
def func (name : String) (u : Tree α) : Tree α := call name [u]

/-- The negative of a tree. -/
def negate : Tree α → Tree α
  | number x => number (-x)
  | t => mul (number (-1)) t

/-- The square of a tree. -/
def square (u : Tree α) : Tree α := pow u (number Scalar.two)

/-- A sum, with a negligible term dropped. -/
def sum (u v : Tree α) : Tree α :=
  if u.isNegligible then v else if v.isNegligible then u else add u v

/-- A difference, with a negligible term dropped. -/
def difference (u v : Tree α) : Tree α :=
  if v.isNegligible then u else if u.isNegligible then negate v else sub u v

/-- A product: zero when a factor is negligible, and without a factor near one. -/
def product (u v : Tree α) : Tree α :=
  if u.isNegligible || v.isNegligible then zero
  else if u.isNearOne then v
  else if v.isNearOne then u
  else mul u v

/-- A product in which a factor is dropped only if it is exactly zero or one. -/
def scaled (u v : Tree α) : Tree α :=
  if u.isLiteral 0 || v.isLiteral 0 then zero
  else if u.isLiteral 1 then v
  else if v.isLiteral 1 then u
  else mul u v

/-- A quotient, zero when the numerator is negligible. -/
def quotient (u v : Tree α) : Tree α :=
  if u.isNegligible then zero else div u v

/-- The derivative of a call at `u`, when `u'` is the derivative of `u`. New calls are built from
names. -/
def rule : Func → (u u' : Tree α) → Tree α
  | .sin, u, u' => scaled (func "cos" u) u'
  | .cos, u, u' => scaled (negate (func "sin" u)) u'
  | .tan, u, u' => scaled (square (func "sec" u)) u'
  | .cot, u, u' => scaled (negate (square (func "csc" u))) u'
  | .sec, u, u' => scaled (mul (func "sec" u) (func "tan" u)) u'
  | .csc, u, u' => scaled (negate (mul (func "csc" u) (func "cot" u))) u'
  | .asin, u, u' => quotient u' (func "sqrt" (sub one (square u)))
  | .acos, u, u' => quotient (negate u') (func "sqrt" (sub one (square u)))
  | .atan, u, u' => quotient u' (add one (square u))
  | .sinh, u, u' => scaled (func "cosh" u) u'
  | .cosh, u, u' => scaled (func "sinh" u) u'
  | .tanh, u, u' => scaled (sub one (square (func "tanh" u))) u'
  | .asinh, u, u' => quotient u' (func "sqrt" (add (square u) one))
  | .acosh, u, u' => quotient u' (func "sqrt" (sub (square u) one))
  | .atanh, u, u' => quotient u' (sub one (square u))
  | .exp, u, u' => scaled (func "exp" u) u'
  | .log, u, u' => quotient u' u
  | .ln, u, u' => quotient u' u
  | .sqrt, u, u' => quotient u' (mul (number Scalar.two) (func "sqrt" u))
  | .abs, u, u' => scaled (func "sign" u) u'
  | .sign, _, _ => zero

/-- The derivative of a call from its arguments and their derivatives. The sign alone reads neither;
all other functions read the first argument and the first derivative. -/
def chain : Func → (args primes : List (Tree α)) → Except TreeFault (Tree α)
  | .sign, _, _ => .ok zero
  | f, u :: _, u' :: _ => .ok (rule f u u')
  | f, _, _ => .error (.missingArgument f.name)

/-- The quotient rule, when `u'` and `v'` are the derivatives of `u` and `v`. -/
def quotientRule (u v u' v' : Tree α) : Tree α :=
  if v'.isNegligible then
    if u'.isNegligible then zero else if v.isNearOne then u' else div u' v
  else
    let left := product u' v
    let right := product u v'
    div (if left.isNegligible then negate right else sub left right) (square v)

/-- `u ^ (v - 1)`, where a literal exponent is lowered at once. -/
def lowered (u : Tree α) : Tree α → Tree α
  | number n => if n == Scalar.two then u else pow u (number (n - 1))
  | v => pow u (sub v one)

/-- The power rule for a fixed exponent, when `u'` is the derivative of the base. -/
def powerRule (u v u' : Tree α) : Tree α :=
  if u'.isNegligible then zero
  else if v.isLiteral 0 then zero
  else if v.isLiteral 1 then u'
  else product v (product (lowered u v) u')

/-- The rule for an exponent that varies. It calls the logarithm by its name. -/
def exponentRule (u v u' v' : Tree α) : Tree α :=
  let left := product v' (func "log" u)
  let right := if u'.isNegligible then zero else product v (div u' u)
  product (pow u v) (sum left right)

mutual

/-- The partial derivative of a tree with respect to the variable `x`. -/
def derive (x : String) : Tree α → Except TreeFault (Tree α)
  | number _ => .ok zero
  | constant _ => .ok zero
  | symbol name => .ok (if name == x then one else zero)
  | call name args =>
    if containsAny x args then
      match Func.ofName? name with
      | none => .ok (number Scalar.nan)
      | some f => do
        let primes ← deriveAll x args
        chain f args primes
    else .ok zero
  | add u v => do
    let u' ← derive x u
    let v' ← derive x v
    return sum u' v'
  | sub u v => do
    let u' ← derive x u
    let v' ← derive x v
    return difference u' v'
  | mul u v => do
    let u' ← derive x u
    let v' ← derive x v
    return sum (product u' v) (product u v')
  | div u v => do
    let u' ← derive x u
    let v' ← derive x v
    return quotientRule u v u' v'
  | pow u v =>
    if contains x v then do
      let u' ← derive x u
      let v' ← derive x v
      return exponentRule u v u' v'
    else do
      let u' ← derive x u
      return powerRule u v u'

/-- The derivatives of some trees. -/
def deriveAll (x : String) : List (Tree α) → Except TreeFault (List (Tree α))
  | [] => .ok []
  | u :: us => do
    let u' ← derive x u
    let us' ← deriveAll x us
    return u' :: us'

end

end Tree

namespace Expr

variable {α : Type} [Scalar α] {u v u' v' : Expr α}

/-- A tree is dropped as a term exactly if its expression is. -/
theorem isNegligible_tree (e : Expr α) : e.tree.isNegligible = e.isNegligible := by
  cases e <;> rfl

/-- A tree is dropped as a factor exactly if its expression is. -/
theorem isNearOne_tree (e : Expr α) : e.tree.isNearOne = e.isNearOne := by
  cases e <;> rfl

/-- A tree is a literal exactly if its expression is. -/
theorem isLiteral_tree (e : Expr α) (x : α) : e.tree.isLiteral x = e.isLiteral x := by
  cases e <;> rfl

/-- The tree of a negative is the negative of the tree. -/
theorem tree_negate (e : Expr α) : e.negate.tree = e.tree.negate := by
  cases e <;> rfl

/-- The tree of a sum is the sum of the trees. -/
theorem tree_sum : (sum u v).tree = .sum u.tree v.tree := by
  simp only [sum, Tree.sum, isNegligible_tree]
  split_ifs <;> rfl

/-- The tree of a difference is the difference of the trees. -/
theorem tree_difference : (difference u v).tree = .difference u.tree v.tree := by
  simp only [difference, Tree.difference, isNegligible_tree, ← tree_negate]
  split_ifs <;> rfl

/-- The tree of a product is the product of the trees. -/
theorem tree_product : (product u v).tree = .product u.tree v.tree := by
  simp only [product, Tree.product, isNegligible_tree, isNearOne_tree]
  split_ifs <;> rfl

/-- The tree of a scaled product is the scaled product of the trees. -/
theorem tree_scaled : (scaled u v).tree = .scaled u.tree v.tree := by
  simp only [scaled, Tree.scaled, isLiteral_tree]
  split_ifs <;> rfl

/-- The tree of a quotient is the quotient of the trees. -/
theorem tree_quotient : (quotient u v).tree = .quotient u.tree v.tree := by
  simp only [quotient, Tree.quotient, isNegligible_tree]
  split_ifs <;> rfl

/-- The rule of each function writes the names of the functions that it means. -/
theorem tree_chain (f : Func) : (chain f u u').tree = .rule f u.tree u'.tree := by
  cases f <;>
    simp only [chain, Tree.rule, tree_scaled, tree_quotient, tree_negate] <;> rfl

/-- A call with one argument has the derivative that the rule of its function gives. -/
theorem chain_tree (f : Func) : Tree.chain f [u.tree] [u'.tree] = .ok (chain f u u').tree := by
  rw [tree_chain]
  cases f <;> rfl

/-- The quotient rule on trees is the quotient rule on expressions. -/
theorem tree_quotientRule :
    (quotientRule u v u' v').tree = .quotientRule u.tree v.tree u'.tree v'.tree := by
  simp only [quotientRule, Tree.quotientRule, isNegligible_tree, isNearOne_tree, ← tree_product,
    ← tree_negate]
  split_ifs <;> rfl

/-- To lower an exponent in a tree is to lower it in the expression. -/
theorem tree_lowered : (lowered u v).tree = .lowered u.tree v.tree := by
  cases v with
  | number n =>
    simp only [lowered, tree, Tree.lowered]
    split_ifs <;> rfl
  | _ => rfl

/-- The power rule on trees is the power rule on expressions. -/
theorem tree_powerRule : (powerRule u v u').tree = .powerRule u.tree v.tree u'.tree := by
  simp only [powerRule, Tree.powerRule, isNegligible_tree, isLiteral_tree, ← tree_lowered,
    ← tree_product]
  split_ifs <;> rfl

/-- The rule for varying exponents on trees is the one on expressions: it names the logarithm. -/
theorem tree_exponentRule :
    (exponentRule u v u' v').tree = .exponentRule u.tree v.tree u'.tree v'.tree := by
  have hlog : (call .log u).tree = .func "log" u.tree := rfl
  have hpow : (pow u v).tree = .pow u.tree v.tree := rfl
  have hdiv : (div u' u).tree = .div u'.tree u.tree := rfl
  simp only [exponentRule, Tree.exponentRule, isNegligible_tree, tree_product, tree_sum, hlog,
    hpow]
  split_ifs
  · rfl
  · rw [tree_product, hdiv]

/-- To differentiate the tree of an expression is to differentiate the expression: every function is
found and every argument is there. -/
theorem derive_tree (x : String) (e : Expr α) : e.tree.derive x = .ok (e.derive x).tree := by
  induction e with
  | number _ | constant _ => rfl
  | symbol name =>
    simp only [tree, Tree.derive, derive]
    split_ifs <;> rfl
  | call f u ih =>
    simp only [tree, Tree.derive, derive, Tree.containsAny, contains_tree, Bool.or_false,
      Func.ofName?_name, Tree.deriveAll, ih]
    split_ifs
    · exact chain_tree f
    · rfl
  | add u v ihu ihv =>
    rw [tree, Tree.derive, ihu, ihv, derive, tree_sum]
    rfl
  | sub u v ihu ihv =>
    rw [tree, Tree.derive, ihu, ihv, derive, tree_difference]
    rfl
  | mul u v ihu ihv =>
    rw [tree, Tree.derive, ihu, ihv, derive, tree_sum, tree_product, tree_product]
    rfl
  | div u v ihu ihv =>
    rw [tree, Tree.derive, ihu, ihv, derive, tree_quotientRule]
    rfl
  | pow u v ihu ihv =>
    simp only [tree, Tree.derive, derive, contains_tree, ihu, ihv]
    split_ifs
    · rw [tree_exponentRule]
      rfl
    · rw [tree_powerRule]
      rfl

end Expr

end ErrorBudget
