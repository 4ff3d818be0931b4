import ErrorBudget.Scalar
import ErrorBudget.Names

/-!
# Constants

The names that an expression may use for fixed numbers. The imaginary unit `I` and complex infinity
`zoo` belong to the grammar but have no real value. A measured quantity must not bear the name of a
constant, except for `oo` and `nan`, which are not restricted.
-/

set_option autoImplicit false

namespace ErrorBudget

/-- A constant of the grammar. -/
inductive Constant where
  | pi
  | e
  | imaginaryUnit
  | infinity
  | complexInfinity
  | nan
  | eulerGamma
  | goldenRatio
  | catalan
  deriving DecidableEq, Repr

namespace Constant

/-- The constants, in the order in which a name is looked up. -/
def all : List Constant :=
  [pi, e, imaginaryUnit, infinity, complexInfinity, nan, eulerGamma, goldenRatio, catalan]

/-- The name of a constant in an expression. -/
def name : Constant → String
  | pi => "pi"
  | e => "E"
  | imaginaryUnit => "I"
  | infinity => "oo"
  | complexInfinity => "zoo"
  | nan => "nan"
  | eulerGamma => "EulerGamma"
  | goldenRatio => "GoldenRatio"
  | catalan => "Catalan"

/-- The constant of a name. -/
def ofName? (s : String) : Option Constant :=
  all.find? fun c => c.name == s

/-- Every constant is found under its own name. -/
theorem ofName?_name (c : Constant) : ofName? c.name = some c := by
  cases c <;> decide

/-- The real value of a constant: the imaginary unit and complex infinity have none. -/
def value? {α : Type} [Scalar α] : Constant → Option α
  | pi => some Scalar.pi
  | e => some (Scalar.exp 1)
  | imaginaryUnit => none
  | infinity => some Scalar.infinity
  | complexInfinity => none
  | nan => some Scalar.nan
  | eulerGamma => some (Scalar.ofDecimal 5772156649015329 (-16))
  | goldenRatio => some ((1 + Scalar.sqrt (Scalar.ofDecimal 5 0)) / Scalar.two)
  | catalan => some (Scalar.ofDecimal 915965594177219 (-15))

/-- Whether no measured quantity may bear the constant's name. -/
def isRestricted : Constant → Bool
  | infinity | nan => false
  | _ => true

end Constant

/-- Whether a name belongs to a restricted constant. -/
def isRestrictedName (name : String) : Bool :=
  match Constant.ofName? name with
  | some c => c.isRestricted
  | none => false

/-- The names of a list that belong to restricted constants. -/
def restrictedNames (names : List String) : NameSet :=
  NameSet.ofNames (names.filter isRestrictedName)

end ErrorBudget
