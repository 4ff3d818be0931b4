import ErrorBudget.Proofs.Parser.Names

/-!
# Expressions as trees of names

In a tree a call is a name with a list of arguments, so a tree can call what is no function, with
any number of arguments. To reduce it, functions are looked up under their names, and the argument
is taken from the list. A tree is well-formed if these look-ups succeed and its symbols are names of
variables.

The well-formed trees are exactly those of the expressions whose variables have such names
(`Tree.isWellFormed_iff`), and there the reduction by names is the reduction of the expression, with
its failures and no others (`Expr.real_tree`).
-/

set_option autoImplicit false

namespace ErrorBudget

/-- An expression whose calls are names with lists of arguments. -/
inductive Tree (α : Type) where
  | number (x : α)
  | symbol (name : String)
  | constant (c : Constant)
  | call (name : String) (args : List (Tree α))
  | add (u v : Tree α)
  | sub (u v : Tree α)
  | mul (u v : Tree α)
  | div (u v : Tree α)
  | pow (u v : Tree α)

/-- Why a tree has no value: no function has the name of a call, a call lacks its argument, or its
leaves fail as those of an expression do. -/
inductive TreeFault where
  | unknownFunction (name : String)
  | missingArgument (name : String)
  | evaluation (fault : EvalFault)

namespace Tree

variable {α : Type}

/-- Every call names a function and has exactly its one argument, and every symbol is written like a
variable and does not belong to a constant. -/
inductive IsWellFormed : Tree α → Prop
  | number {x} : IsWellFormed (number x)
  | symbol {name} (h : IsIdentifier name) (hconstant : Constant.ofName? name = none) :
      IsWellFormed (symbol name)
  | constant {c} : IsWellFormed (constant c)
  | call {name f args} (hname : Func.ofName? name = some f) (hargs : args.length = Func.arity)
      (h : ∀ u ∈ args, IsWellFormed u) : IsWellFormed (call name args)
  | add {u v} (hu : IsWellFormed u) (hv : IsWellFormed v) : IsWellFormed (add u v)
  | sub {u v} (hu : IsWellFormed u) (hv : IsWellFormed v) : IsWellFormed (sub u v)
  | mul {u v} (hu : IsWellFormed u) (hv : IsWellFormed v) : IsWellFormed (mul u v)
  | div {u v} (hu : IsWellFormed u) (hv : IsWellFormed v) : IsWellFormed (div u v)
  | pow {u v} (hu : IsWellFormed u) (hv : IsWellFormed v) : IsWellFormed (pow u v)

variable [Scalar α]

mutual

/-- The value of a tree at a point, undefined results included. -/
def real (p : Point α) : Tree α → Except TreeFault α
  | number x => .ok x
  | symbol name =>
    match p[name]? with
    | some x => .ok x
    | none => .error (.evaluation (.unassigned name))
  | constant c =>
    match (c.value? : Option α) with
    | some x => .ok x
    | none => .error (.evaluation (.noRealValue c))
  | call name args =>
    match Func.ofName? name with
    | none => .error (.unknownFunction name)
    | some f => do
      let xs ← realAll p args
      match xs with
      | [] => .error (.missingArgument name)
      | x :: _ => return f.apply x
  | add u v => do
    let x ← real p u
    let y ← real p v
    return x + y
  | sub u v => do
    let x ← real p u
    let y ← real p v
    return x - y
  | mul u v => do
    let x ← real p u
    let y ← real p v
    return x * y
  | div u v => do
    let x ← real p u
    let y ← real p v
    return x / y
  | pow u v => do
    let x ← real p u
    match v with
    | number n => return Scalar.powLiteral x n
    | v =>
      let y ← real p v
      return Scalar.pow x y

/-- The values of some trees, from left to right. -/
def realAll (p : Point α) : List (Tree α) → Except TreeFault (List α)
  | [] => .ok []
  | u :: us => do
    let x ← real p u
    let xs ← realAll p us
    return x :: xs

end

end Tree

namespace Expr

variable {α : Type} {e : Expr α}

/-- The tree of an expression, in which functions are called by their names. -/
def tree : Expr α → Tree α
  | number x => .number x
  | symbol name => .symbol name
  | constant c => .constant c
  | call f u => .call f.name [u.tree]
  | add u v => .add u.tree v.tree
  | sub u v => .sub u.tree v.tree
  | mul u v => .mul u.tree v.tree
  | div u v => .div u.tree v.tree
  | pow u v => .pow u.tree v.tree

/-- Whether an expression is well-formed as a tree. -/
def IsWellFormed (e : Expr α) : Prop := e.tree.IsWellFormed

/-- An expression is well-formed exactly if its variables have names that can be read alone: its
calls are well-formed by themselves. -/
theorem isWellFormed_iff : e.IsWellFormed ↔ e.LeavesIn IsVariableName fun _ => True := by
  unfold IsWellFormed
  induction e with
  | number x => exact iff_of_true .number trivial
  | constant c => exact iff_of_true .constant trivial
  | symbol name =>
    refine ⟨fun h => ?_, fun h => .symbol h.1 h.2⟩
    cases h with
    | symbol hname hconstant => exact ⟨hname, hconstant⟩
  | call f u ih =>
    rw [tree, LeavesIn, ← ih]
    constructor
    · intro h
      cases h with
      | call hname hargs h => exact h u.tree (List.mem_singleton_self _)
    · intro hu
      refine .call (Func.ofName?_name f) rfl fun t ht => ?_
      rwa [List.mem_singleton.mp ht]
  | add u v ihu ihv =>
    rw [tree, LeavesIn, ← ihu, ← ihv]
    refine ⟨fun h => ?_, fun h => .add h.1 h.2⟩
    cases h with
    | add hu hv => exact ⟨hu, hv⟩
  | sub u v ihu ihv =>
    rw [tree, LeavesIn, ← ihu, ← ihv]
    refine ⟨fun h => ?_, fun h => .sub h.1 h.2⟩
    cases h with
    | sub hu hv => exact ⟨hu, hv⟩
  | mul u v ihu ihv =>
    rw [tree, LeavesIn, ← ihu, ← ihv]
    refine ⟨fun h => ?_, fun h => .mul h.1 h.2⟩
    cases h with
    | mul hu hv => exact ⟨hu, hv⟩
  | div u v ihu ihv =>
    rw [tree, LeavesIn, ← ihu, ← ihv]
    refine ⟨fun h => ?_, fun h => .div h.1 h.2⟩
    cases h with
    | div hu hv => exact ⟨hu, hv⟩
  | pow u v ihu ihv =>
    rw [tree, LeavesIn, ← ihu, ← ihv]
    refine ⟨fun h => ?_, fun h => .pow h.1 h.2⟩
    cases h with
    | pow hu hv => exact ⟨hu, hv⟩

end Expr

/-- The function that is found under a name has this name. -/
theorem Func.name_of_ofName? {name : String} {f : Func} (h : ofName? name = some f) :
    f.name = name := by
  simpa using List.find?_some h

/-- The well-formed trees are those of well-formed expressions. -/
theorem Tree.isWellFormed_iff {α : Type} {t : Tree α} :
    t.IsWellFormed ↔ ∃ e : Expr α, e.IsWellFormed ∧ e.tree = t := by
  constructor
  · intro h
    suffices hexists : ∃ e : Expr α, e.tree = t by
      obtain ⟨e, he⟩ := hexists
      exact ⟨e, by rwa [Expr.IsWellFormed, he], he⟩
    induction h with
    | @number x => exact ⟨.number x, rfl⟩
    | @symbol name => exact ⟨.symbol name, rfl⟩
    | @constant c => exact ⟨.constant c, rfl⟩
    | @call name f args hname hargs h ih =>
      obtain ⟨u, rfl⟩ := List.length_eq_one_iff.mp hargs
      obtain ⟨e, rfl⟩ := ih u (List.mem_singleton_self _)
      obtain rfl := Func.name_of_ofName? hname
      exact ⟨.call f e, rfl⟩
    | add _ _ ihu ihv =>
      obtain ⟨u, rfl⟩ := ihu
      obtain ⟨v, rfl⟩ := ihv
      exact ⟨.add u v, rfl⟩
    | sub _ _ ihu ihv =>
      obtain ⟨u, rfl⟩ := ihu
      obtain ⟨v, rfl⟩ := ihv
      exact ⟨.sub u v, rfl⟩
    | mul _ _ ihu ihv =>
      obtain ⟨u, rfl⟩ := ihu
      obtain ⟨v, rfl⟩ := ihv
      exact ⟨.mul u v, rfl⟩
    | div _ _ ihu ihv =>
      obtain ⟨u, rfl⟩ := ihu
      obtain ⟨v, rfl⟩ := ihv
      exact ⟨.div u v, rfl⟩
    | pow _ _ ihu ihv =>
      obtain ⟨u, rfl⟩ := ihu
      obtain ⟨v, rfl⟩ := ihv
      exact ⟨.pow u v, rfl⟩
  · rintro ⟨e, he, rfl⟩
    exact he

namespace Expr

variable {α : Type} [Scalar α] {p : Point α}

/-- An exponent that is no literal is reduced like any other tree. -/
theorem real_tree_pow {u v : Expr α} (hv : v.number? = none) :
    (pow u v).tree.real p = do
      let x ← u.tree.real p
      let y ← v.tree.real p
      return Scalar.pow x y := by
  cases v with
  | number c => simp [number?] at hv
  | _ => rfl

/-- Reduction by names is the reduction of the expression: it meets no unknown function and no
missing argument. -/
theorem real_tree (e : Expr α) : e.tree.real p = (e.real p).mapError .evaluation := by
  induction e with
  | number x => rfl
  | symbol name =>
    rw [tree, Tree.real, real]
    cases p[name]? <;> rfl
  | constant c =>
    rw [tree, Tree.real, real]
    cases (c.value? : Option α) <;> rfl
  | call f u ih =>
    rw [tree, Tree.real, Func.ofName?_name, real, Tree.realAll, Tree.realAll, ih]
    cases u.real p <;> rfl
  | add u v ihu ihv | sub u v ihu ihv | mul u v ihu ihv | div u v ihu ihv =>
    rw [tree, Tree.real, real, ihu, ihv]
    simp only [mapError_bind]
    rfl
  | pow u v ihu ihv =>
    cases hliteral : v.number? with
    | some n =>
      cases v with
      | number c =>
        rw [tree, tree, Tree.real, real, ihu]
        cases u.real p <;> rfl
      | _ => simp [number?] at hliteral
    | none =>
      rw [real_tree_pow hliteral, real_pow hliteral, ihu, ihv]
      simp only [mapError_bind]
      rfl

end Expr

end ErrorBudget
