import ErrorBudget.Error
import ErrorBudget.Expr.Derivative

/-!
# Equations

An equation says that its residual is zero. Either the residual is an expression, and the partial
derivatives are found once, when the equation is made; or residual and derivatives are given as
functions of the point, and then every declared variable must come with a derivative and no other
variable may. Both kinds answer the same questions, and the functions are never asked about a point
that leaves one of their variables without a number.
-/

set_option autoImplicit false

namespace ErrorBudget

/-- An equation given by functions of the point. -/
structure Native (α : Type) where
  /-- The name of the equation in messages. -/
  label : String
  /-- The variables that it declares. -/
  vars : NameSet
  /-- The function that has to be zero. -/
  residual : Point α → α
  /-- The partial derivatives of the residual. -/
  partials : NameMap (Point α → α)

/-- An equation whose residual has to be zero. The keys of the partial derivatives are its
variables. -/
inductive Equation (α : Type) where
  /-- The residual is an expression. -/
  | symbolic (label : String) (residual : Expr α) (partials : NameMap (Expr α))
  /-- The residual is a function. -/
  | native (label : String) (residual : Point α → α) (partials : NameMap (Point α → α))

/-- An undefined result of a function is refused in the name of its label. -/
def definedAs {α : Type} [Scalar α] (label : String) (x : α) : Except (EvalError α) α :=
  (Expr.defined x).mapError fun fault => ⟨.label label, fault⟩

namespace Equation

variable {α : Type}

/-- The text that the equation was made from. -/
def label : Equation α → String
  | symbolic label _ _ => label
  | native label _ _ => label

/-- What messages call the equation: its expression, or its label if it has none. -/
def subject : Equation α → Subject α
  | symbolic _ residual _ => .expression residual
  | native label _ _ => .label label

/-- The residual, if it is an expression. -/
def expr? : Equation α → Option (Expr α)
  | symbolic _ residual _ => some residual
  | native _ _ _ => none

/-- Whether the equation is given by functions. -/
def isNative : Equation α → Bool
  | symbolic _ _ _ => false
  | native _ _ _ => true

/-- The variables of an equation, in increasing order. -/
def vars : Equation α → List String
  | symbolic _ _ partials => partials.keys
  | native _ _ partials => partials.keys

/-- Whether a variable occurs in an equation. -/
def contains (x : String) : Equation α → Bool
  | symbolic _ _ partials => partials.contains x
  | native _ _ partials => partials.contains x

/-- The variables to which a point gives no number, in increasing order. -/
def unresolved (eq : Equation α) (p : Point α) : List String :=
  eq.vars.filter fun x => x ∉ p

/-- The equation of given functions, if the derivatives fit the declared variables. -/
def ofNative (n : Native α) : Except (Error α) (Equation α) :=
  match n.partials.keys.find? fun x => x ∉ n.vars with
  | some x => .error (.invalidNative n.label (.undeclared x))
  | none =>
    match n.vars.toList.filter fun x => x ∉ n.partials with
    | [] => .ok (native n.label n.residual n.partials)
    | names => .error (.invalidNative n.label (.incomplete names))

variable [Scalar α]

/-- The equation whose residual is an expression, with all its derivatives. -/
def ofExpr (label : String) (e : Expr α) : Equation α :=
  symbolic label e (NameMap.ofEntries (e.vars.toList.map fun x => (x, e.derive x)))

/-- Refuses a point that leaves a variable of the equation without a number. -/
def requireResolved (eq : Equation α) (p : Point α) : Except (EvalError α) Unit :=
  match eq.unresolved p with
  | [] => .ok ()
  | names => .error ⟨eq.subject, .unresolved names⟩

/-- The residual of an equation at a point. -/
def evaluate (eq : Equation α) (p : Point α) : Except (EvalError α) α := do
  eq.requireResolved p
  match eq with
  | symbolic _ residual _ => residual.evaluate p
  | native label residual _ => definedAs label (residual p)

/-- The partial derivative of the residual at a point; zero for a variable that does not occur. -/
def partialAt (eq : Equation α) (x : String) (p : Point α) : Except (EvalError α) α :=
  match eq with
  | symbolic _ _ partials =>
    match partials[x]? with
    | some e => e.evaluate p
    | none => .ok 0
  | native label _ partials =>
    match partials[x]? with
    | some f => do
      eq.requireResolved p
      definedAs s!"d({label})/d{x}" (f p)
    | none => .ok 0

end Equation

end ErrorBudget
