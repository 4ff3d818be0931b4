import ErrorBudget.Expr.Basic

/-!
# The value of an expression at a point

`Expr.real` reduces an expression to a number, from left to right; `Expr.evaluate` is what callers
use. It insists that the point resolves every free variable, and it accepts only a real number as
the result: an undefined result such as the square root of `-1` is a failure, and so are the
constants without a real value.
-/

set_option autoImplicit false

namespace ErrorBudget

/-- Why something has no value. -/
inductive EvalFault where
  /-- The point gives no number to these free variables. -/
  | unresolved (names : List String)
  /-- The point gives no number to the variable just reached. -/
  | unassigned (name : String)
  /-- The constant just reached is not a real number. -/
  | noRealValue (c : Constant)
  /-- The arithmetic has no real result. -/
  | notReal
  /-- These variables of an equation have neither a value nor an error. -/
  | noInput (names : List String)
  /-- A variable of the result has no value. -/
  | noValue
  deriving DecidableEq, Repr

namespace EvalFault

/-- The reason as a text. -/
def message : EvalFault → String
  | unresolved names => s!"unresolved variables [{listed names}]"
  | unassigned name => s!"unresolved variable '{name}'"
  | noRealValue c => s!"constant '{c.name}' has no real value"
  | notReal => "result is not a real number"
  | noInput names => s!"no value or error supplied for [{listed names}]"
  | noValue => "no value supplied"

end EvalFault

/-- What an error speaks about: an expression, or something known only by its label. -/
inductive Subject (α : Type) where
  | expression (e : Expr α)
  | label (text : String)

/-- A failure to reduce its subject to a real number. -/
structure EvalError (α : Type) where
  /-- What was to be reduced. -/
  subject : Subject α
  /-- Why it has no value. -/
  fault : EvalFault

namespace Expr

variable {α : Type} [Scalar α]

/-- The value of an expression at a point, undefined results included. An exponent that is a literal
integer is not evaluated but applied by squaring. -/
def real (p : Point α) : Expr α → Except EvalFault α
  | number x => .ok x
  | symbol name =>
    match p[name]? with
    | some x => .ok x
    | none => .error (.unassigned name)
  | constant c =>
    match (c.value? : Option α) with
    | some x => .ok x
    | none => .error (.noRealValue c)
  | call f u => do
    let x ← real p u
    return f.apply x
  | add u v => do
    let x ← real p u
    let y ← real p v
    return x + y
  | sub u v => do
    let x ← real p u
    let y ← real p v
    return x - y
  | mul u v => do
    let x ← real p u
    let y ← real p v
    return x * y
  | div u v => do
    let x ← real p u
    let y ← real p v
    return x / y
  | pow u v => do
    let x ← real p u
    match v with
    | number n => return Scalar.powLiteral x n
    | v =>
      let y ← real p v
      return Scalar.pow x y

/-- A number as a result: undefined ones are refused. -/
def defined (x : α) : Except EvalFault α :=
  if Scalar.isNaN x then .error .notReal else .ok x

/-- The real value of an expression at a point that resolves all its variables, or why there is
none. -/
def value (e : Expr α) (p : Point α) : Except EvalFault α :=
  match e.unresolved p with
  | [] => do
    let x ← real p e
    defined x
  | names => .error (.unresolved names)

/-- The real value of an expression; a failure names the expression. -/
def evaluate (e : Expr α) (p : Point α) : Except (EvalError α) α :=
  (e.value p).mapError fun fault => ⟨.expression e, fault⟩

end Expr

end ErrorBudget
