import ErrorBudget.Proofs.Expr.Tree

/-!
# Variables of trees

The variables of a tree, their replacement, and the value of a tree at a point that has to resolve
them. A call passes them on to all its arguments, however many it has, and keeps its name.

On the tree of an expression they are those of the expression (`Expr.vars_tree`,
`Expr.substitute_tree`, `Expr.value_tree`). A replacement does not look at names of functions, so a
well-formed tree stays well-formed (`Tree.IsWellFormed.substitute`).
-/

set_option autoImplicit false

namespace ErrorBudget

namespace Tree

variable {α : Type}

mutual

/-- Whether a variable occurs in a tree. -/
def contains (x : String) : Tree α → Bool
  | number _ | constant _ => false
  | symbol name => name == x
  | call _ args => containsAny x args
  | add u v | sub u v | mul u v | div u v | pow u v => contains x u || contains x v

/-- Whether a variable occurs in one of some trees. -/
def containsAny (x : String) : List (Tree α) → Bool
  | [] => false
  | u :: us => contains x u || containsAny x us

end

mutual

/-- The free variables of a tree. -/
def vars : Tree α → NameSet
  | number _ | constant _ => ∅
  | symbol name => {name}
  | call _ args => varsAll args
  | add u v | sub u v | mul u v | div u v | pow u v => vars u ∪ vars v

/-- The free variables of some trees. -/
def varsAll : List (Tree α) → NameSet
  | [] => ∅
  | u :: us => vars u ∪ varsAll us

end

mutual

/-- Replaces every variable that has a replacement; replacements are not looked into again. -/
def replace (names : NameMap (Tree α)) : Tree α → Tree α
  | number x => number x
  | symbol name => names.getD name (symbol name)
  | constant c => constant c
  | call name args => call name (replaceAll names args)
  | add u v => add (replace names u) (replace names v)
  | sub u v => sub (replace names u) (replace names v)
  | mul u v => mul (replace names u) (replace names v)
  | div u v => div (replace names u) (replace names v)
  | pow u v => pow (replace names u) (replace names v)

/-- Replaces variables in some trees. -/
def replaceAll (names : NameMap (Tree α)) : List (Tree α) → List (Tree α)
  | [] => []
  | u :: us => replace names u :: replaceAll names us

end

/-- A tree with replacements for some variables; without any it is left alone. -/
def substitute (t : Tree α) (names : NameMap (Tree α)) : Tree α :=
  if names.isEmpty then t else t.replace names

/-- Each of some trees has its variables replaced. -/
theorem replaceAll_eq_map (names : NameMap (Tree α)) (us : List (Tree α)) :
    replaceAll names us = us.map (replace names) := by
  induction us with
  | nil => rfl
  | cons u us ih => rw [replaceAll, List.map_cons, ih]

/-- Well-formed replacements leave a well-formed tree well-formed, also where there are none. -/
theorem IsWellFormed.replace {t : Tree α} (h : t.IsWellFormed) {names : NameMap (Tree α)}
    (hnames : ∀ (x : String) (r : Tree α), names[x]? = some r → r.IsWellFormed) :
    (t.replace names).IsWellFormed := by
  induction h with
  | number => exact .number
  | @symbol name hname hconstant =>
    rw [Tree.replace, Std.ExtTreeMap.getD_eq_getD_getElem?]
    cases hr : names[name]? with
    | none => exact .symbol hname hconstant
    | some r => exact hnames name r hr
  | constant => exact .constant
  | @call name f args hname hargs h ih =>
    -- The name of the call and the number of its arguments stay.
    rw [Tree.replace, replaceAll_eq_map]
    refine .call hname (by rwa [List.length_map]) fun u hu => ?_
    obtain ⟨v, hv, rfl⟩ := List.mem_map.mp hu
    exact ih v hv
  | add _ _ ihu ihv => exact .add ihu ihv
  | sub _ _ ihu ihv => exact .sub ihu ihv
  | mul _ _ ihu ihv => exact .mul ihu ihv
  | div _ _ ihu ihv => exact .div ihu ihv
  | pow _ _ ihu ihv => exact .pow ihu ihv

/-- Well-formed replacements leave a well-formed tree well-formed. -/
theorem IsWellFormed.substitute {t : Tree α} (h : t.IsWellFormed) {names : NameMap (Tree α)}
    (hnames : ∀ (x : String) (r : Tree α), names[x]? = some r → r.IsWellFormed) :
    (t.substitute names).IsWellFormed := by
  unfold Tree.substitute
  split
  · exact h
  · exact h.replace hnames

variable [Scalar α]

/-- The real value of a tree at a point that resolves all its variables, or why there is none. -/
def value (t : Tree α) (p : Point α) : Except TreeFault α :=
  match t.vars.toList.filter fun x => x ∉ p with
  | [] => do
    let x ← t.real p
    (Expr.defined x).mapError .evaluation
  | names => .error (.evaluation (.unresolved names))

end Tree

namespace Expr

variable {α : Type}

/-- The variables that occur in the tree of an expression are those that occur in the expression. -/
theorem contains_tree (x : String) (e : Expr α) : e.tree.contains x = e.contains x := by
  induction e with
  | number _ | constant _ | symbol _ => rfl
  | call f u ih => simp only [tree, Tree.contains, Tree.containsAny, contains, ih, Bool.or_false]
  | add u v ihu ihv | sub u v ihu ihv | mul u v ihu ihv | div u v ihu ihv | pow u v ihu ihv =>
    simp only [tree, Tree.contains, contains, ihu, ihv]

/-- The tree of an expression has the free variables of the expression. -/
theorem vars_tree (e : Expr α) : e.tree.vars = e.vars := by
  induction e with
  | number _ | constant _ | symbol _ => rfl
  | call f u ih =>
    simp only [tree, Tree.vars, Tree.varsAll, vars, ih]
    exact Std.ExtTreeSet.ext_mem fun x => by simp
  | add u v ihu ihv | sub u v ihu ihv | mul u v ihu ihv | div u v ihu ihv | pow u v ihu ihv =>
    simp only [tree, Tree.vars, vars, ihu, ihv]

/-- Replacements by trees have the effect of the replacements by their expressions. -/
theorem replace_tree (e : Expr α) (names : NameMap (Expr α)) :
    e.tree.replace (names.map fun _ r => r.tree) = (e.substitute names).tree := by
  induction e with
  | number _ | constant _ => rfl
  | symbol name =>
    simp only [tree, Tree.replace, substitute, Std.ExtTreeMap.getD_eq_getD_getElem?,
      Std.ExtTreeMap.getElem?_map]
    cases names[name]? <;> rfl
  | call f u ih => simp only [tree, Tree.replace, Tree.replaceAll, substitute, ih]
  | add u v ihu ihv | sub u v ihu ihv | mul u v ihu ihv | div u v ihu ihv | pow u v ihu ihv =>
    simp only [tree, Tree.replace, substitute, ihu, ihv]

/-- To replace variables in the tree of an expression is to replace them in the expression. -/
theorem substitute_tree (e : Expr α) (names : NameMap (Expr α)) :
    e.tree.substitute (names.map fun _ r => r.tree) = (e.substitute names).tree := by
  unfold Tree.substitute
  split
  · rename_i hempty
    have hnames : names = ∅ := by
      rwa [Std.ExtTreeMap.isEmpty_iff, Std.ExtTreeMap.map_eq_empty_iff] at hempty
    rw [hnames, substitute_empty]
  · exact e.replace_tree names

variable [Scalar α]

/-- The value of the tree of an expression is that of the expression, with its failures and no
others. -/
theorem value_tree (e : Expr α) (p : Point α) :
    e.tree.value p = (e.value p).mapError .evaluation := by
  unfold Tree.value value unresolved
  rw [vars_tree]
  cases e.vars.toList.filter fun x => x ∉ p with
  | nil =>
    dsimp only
    rw [real_tree, mapError_bind]
  | cons x names => rfl

end Expr

end ErrorBudget
