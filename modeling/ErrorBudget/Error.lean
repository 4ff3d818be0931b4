import ErrorBudget.Expr.Printer
import ErrorBudget.Token

/-!
# Errors

Everything that can go wrong, as causes: what was found and where. `Error.message` is the one place
where the causes become words.
-/

set_option autoImplicit false

namespace ErrorBudget

/-- A text that is not an expression or an equation. -/
structure ParseError (α : Type) where
  /-- The whole text. -/
  input : String
  /-- What is wrong with it. -/
  fault : SyntaxFault α
  /-- Where the fault is, if it is at one place. -/
  span : Option Span

/-- Why a line of a definition is refused. -/
inductive DefinitionFault (α : Type) where
  /-- The line starts a section that does not exist. -/
  | unknownSection (header : String)
  /-- The line stands before the first section. -/
  | outsideSection
  /-- The line has no colon. -/
  | noColon (line : String)
  /-- Nothing stands before the colon. -/
  | emptyKey
  /-- What is to be replaced is not a variable. -/
  | notVariable (name : String)
  /-- Nothing stands behind the colon. -/
  | noReplacement (name : String)
  /-- What stands behind the colon is not an expression. -/
  | invalidReplacement (name : String) (reason : ParseError α)
  /-- A combination lists something that is not an index. -/
  | notIndex (combo word : String)
  /-- A combination lists nothing. -/
  | emptyCombo (combo : String)

/-- Why the derivatives given with an equation do not fit its variables. -/
inductive NativeFault where
  /-- A derivative belongs to a variable that is not declared. -/
  | undeclared (name : String)
  /-- These variables have no derivative. -/
  | incomplete (names : List String)
  deriving DecidableEq, Repr

/-- How to bring the number of unknown errors and the number of equations together. -/
inductive Advice where
  /-- Give errors to that many of these variables. -/
  | addErrors (count : Nat) (names : List String)
  /-- Take the errors of that many of these variables away. -/
  | removeErrors (count : Nat) (names : List String)
  deriving DecidableEq, Repr

/-- Why a link between two stages cannot be followed. -/
inductive LinkFault where
  /-- The first stage has nothing in front of it. -/
  | noPrevious
  /-- The source is not in the result of the stage before. -/
  | unknownSource (previous : Nat)
  /-- The target does not occur in the equations of the stage. -/
  | unknownTarget
  deriving DecidableEq, Repr

/-- The three kinds of inputs that a pipeline takes once per stage. -/
inductive StageInput where
  | values
  | errors
  | constants
  deriving DecidableEq, Repr

/-- Why a configuration is refused. -/
inductive ConfigFault (α : Type) where
  /-- The text is not a configuration. -/
  | unreadable
  /-- The tolerance is negative or not finite. -/
  | invalidTolerance (tolerance : α)
  /-- A limit is zero. -/
  | zeroLimit

/-- A failure of this library. -/
inductive Error (α : Type) where
  /-- A text is not an expression or an equation. -/
  | parse (e : ParseError α)
  /-- An equation has more than one equal sign. -/
  | malformed (input : String) (equalSigns : Nat)
  /-- Something has no real value. -/
  | evaluation (e : EvalError α)
  /-- Inputs bear the names of restricted constants. -/
  | restricted (names : List String)
  /-- The values do not satisfy an equation. -/
  | unsatisfied (index : Nat) (equation : Subject α) (residual tolerance : α)
  /-- The values do not resolve an equation. -/
  | missingValues (index : Nat) (equation : Subject α) (names : List String)
  /-- There are not as many unknown errors as equations. -/
  | indeterminate (equations unknowns : Nat) (advice : Advice)
  /-- The derivatives given with an equation do not fit its variables. -/
  | invalidNative (label : String) (fault : NativeFault)
  /-- The equations do not determine the unknown errors. -/
  | singular (unknowns : List String)
  /-- No combination has this name. -/
  | unknownCombo (name : String)
  /-- A combination refers to an equation that does not exist. -/
  | invalidCombo (name : String) (index count : Nat)
  /-- A link between two stages cannot be followed. -/
  | invalidLink (stage : Nat) (source target : String) (fault : LinkFault)
  /-- A line of a definition is refused. -/
  | definition (line : Nat) (fault : DefinitionFault α)
  /-- A pipeline is not given one input per stage. -/
  | shape (what : StageInput) (expected found : Nat)
  /-- A diagnosis found these failures. -/
  | checkFailed (messages : List String)
  /-- A stage of a pipeline failed. -/
  | stage (number : Nat) (source : Error α)
  /-- A configuration is refused. -/
  | config (fault : ConfigFault α)

/-- The advice in words. -/
def Advice.message : Advice → String
  | .addErrors count names =>
    s!"To correct, add ({count}) errors in [{listed names}] or adjust the input equations."
  | .removeErrors count names =>
    s!"To correct, remove ({count}) errors in [{listed names}] or adjust the input equations."

/-- The reason in words. -/
def NativeFault.message : NativeFault → String
  | .undeclared name => s!"partial given for undeclared variable '{name}'"
  | .incomplete names => s!"no partial derivative for [{listed names}]"

/-- The reason in words, for a link into a stage. -/
def LinkFault.message (number : Nat) (source target : String) : LinkFault → String
  | .noPrevious => "the first stage has no previous result to link from"
  | .unknownSource previous => s!"'{source}' is not in the stage {previous} result"
  | .unknownTarget => s!"'{target}' is not a variable of the stage {number} equations"

/-- What a pipeline takes once per stage, in words. -/
def StageInput.text : StageInput → String
  | .values => "value maps"
  | .errors => "error maps"
  | .constants => "constant error maps"

section Messages

variable {α : Type} [Numeral α]

/-- A failure to read a text, in words. -/
def ParseError.message (e : ParseError α) : String :=
  let place := match e.span with
    | some span => span.text
    | none => ""
  s!"Failed to parse equation '{e.input}': {e.fault.message}{place}"

/-- The reason in words. -/
def DefinitionFault.message : DefinitionFault α → String
  | .unknownSection header => s!"invalid section header '[{header}]'"
  | .outsideSection => "content before the first section header"
  | .noColon line => s!"expected 'key: value', got '{line}'"
  | .emptyKey => "empty key"
  | .notVariable name => s!"'{name}' is not a variable name"
  | .noReplacement name => s!"missing replacement for name '{name}'"
  | .invalidReplacement name reason => s!"invalid replacement for '{name}': {reason.message}"
  | .notIndex combo word => s!"combo '{combo}': '{word}' is not an equation index"
  | .emptyCombo combo => s!"combo '{combo}' lists no equations"

/-- The reason in words. -/
def ConfigFault.message : ConfigFault α → String
  | .unreadable => "the text is not a configuration"
  | .invalidTolerance tolerance =>
    s!"tolerance must be a finite non-negative number, got {Numeral.plain tolerance}"
  | .zeroLimit => "max_depth and max_nodes must be positive"

variable [Scalar α]

/-- A failure to evaluate, in words. -/
def EvalError.message (e : EvalError α) : String :=
  s!"Cannot evaluate '{e.subject.print}': {e.fault.message}"

/-- A failure in words. -/
def Error.message : Error α → String
  | .parse e => e.message
  | .malformed input equalSigns => s!"Equation has too many equal signs ({equalSigns}): {input}"
  | .evaluation e => e.message
  | .restricted names =>
    s!"Symbols [{listed names}] in input are restricted and cannot be used"
  | .unsatisfied index equation residual tolerance =>
    s!"Equation {index}: {equation.print} value check tolerance exceeded: "
      ++ s!"|{Numeral.plain residual}| > {Numeral.plain tolerance}"
  | .missingValues index equation names =>
    s!"Values [{listed names}] missing for equation {index}: {equation.print}"
  | .indeterminate equations unknowns advice =>
    let comparison := if unknowns < equations then ">" else "<"
    s!"Indeterminate system: number of equations ({equations}) {comparison} "
      ++ s!"number of unknowns ({unknowns}). {advice.message}"
  | .invalidNative label fault => s!"Function-backed equation '{label}': {fault.message}"
  | .singular unknowns => s!"Jacobian is singular with respect to unknowns [{listed unknowns}]"
  | .unknownCombo name => s!"Equation combination '{name}' does not exist"
  | .invalidCombo name index count =>
    s!"Equation combination '{name}' references equation {index}, but only {count} exist"
  | .invalidLink number source target fault =>
    s!"Stage {number} link '{source}' -> '{target}': {fault.message number source target}"
  | .definition line fault => s!"Definition line {line}: {fault.message}"
  | .shape what expected found => s!"Pipeline expects {expected} {what.text}, got {found}"
  | .checkFailed messages => "\n".intercalate messages
  | .stage number source => s!"Stage {number}: {source.message}"
  | .config fault => s!"Invalid solver configuration: {fault.message}"

end Messages

end ErrorBudget
