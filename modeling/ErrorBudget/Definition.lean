import ErrorBudget.Expr.Reading
import ErrorBudget.Text.Index

/-!
# Definitions

A definition is a text of lines in three sections: equations, names and combinations. A number sign
starts a comment, and blank lines are skipped. Under names, `radius: d/2` replaces a variable by an
expression; under combos, `area: 0 2` gives a name to some of the equations, counted from zero.

`Definition.parse` goes through the lines with the section of the line and what has been collected
so far. The first line that is refused ends the reading, and the failure carries its number,
counted from one.
-/

set_option autoImplicit false

namespace ErrorBudget

/-- What a definition says: its equations as texts in their order, the replacements, and the named
combinations of its equations. -/
structure Definition (α : Type) where
  /-- The equations, in the order of their lines. -/
  equations : List String := []
  /-- Replacements for variables. -/
  names : NameMap (Expr α) := ∅
  /-- Named combinations, as indices into the equations. -/
  combos : NameMap (List Nat) := ∅

namespace Definition

/-- A section of a definition. -/
inductive Section where
  | equations
  | names
  | combos
  deriving DecidableEq, Repr

/-- The section that a header names. -/
def Section.ofHeader? (header : String) : Option Section :=
  if header = "equations" then some .equations
  else if header = "names" then some .names
  else if header = "combos" then some .combos
  else none

/-- The content of a line: what stands before a comment, without blanks at its ends. -/
def content (line : List Char) : List Char :=
  trimBlanks (line.takeWhile (· != '#'))

/-- What stands between the brackets of a line that is a header. -/
def header? : List Char → Option (List Char)
  | '[' :: cs => if cs.getLast? = some ']' then some (trimBlanks cs.dropLast) else none
  | _ => none

variable {α : Type}

/-- The key and the rest of a line, split at its first colon. -/
def entry (line : List Char) : Except (DefinitionFault α) (String × List Char) :=
  match splitFirst? (· == ':') line with
  | none => .error (.noColon (String.ofList line))
  | some (key, rest) =>
    let key := trimBlanks key
    if key.isEmpty then .error .emptyKey else .ok (String.ofList key, trimBlanks rest)

/-- The indices that a combination lists; there must be at least one. -/
def indices (combo : String) (words : List (List Char)) :
    Except (DefinitionFault α) (List Nat) :=
  if words.isEmpty then .error (.emptyCombo combo)
  else words.mapM fun word =>
    match readIndex? word with
    | some i => .ok i
    | none => .error (.notIndex combo (String.ofList word))

variable [Scalar α]

/-- The replacement that a line gives for `old`, which must be a variable and nothing else. -/
def replacement (old : String) (new : List Char) : Except (DefinitionFault α) (Expr α) :=
  match (Expr.parse old : Except (ParseError α) (Expr α)) with
  | .ok (.symbol _) =>
    if new.isEmpty then .error (.noReplacement old)
    else (Expr.parse (String.ofList new)).mapError (.invalidReplacement old)
  | _ => .error (.notVariable old)

/-- What has been read so far: the current section, and the definition collected. -/
structure Progress (α : Type) where
  /-- The section of the next line, once a header has been read. -/
  current : Option Section := none
  /-- What the lines so far say. -/
  collected : Definition α := {}

/-- Reads a line that is neither blank nor a header. -/
def Progress.item (p : Progress α) (line : List Char) :
    Except (DefinitionFault α) (Definition α) :=
  let d := p.collected
  match p.current with
  | none => .error .outsideSection
  | some .equations => .ok { d with equations := d.equations ++ [String.ofList line] }
  | some .names => do
    let (old, new) ← entry line
    let e ← replacement old new
    return { d with names := d.names.insert old e }
  | some .combos => do
    let (combo, rest) ← entry line
    let is ← indices combo (textWords rest)
    return { d with combos := d.combos.insert combo is }

/-- Reads one line. -/
def Progress.step (p : Progress α) (line : List Char) : Except (DefinitionFault α) (Progress α) :=
  let line := content line
  if line.isEmpty then .ok p
  else
    match header? line with
    | some header =>
      match Section.ofHeader? (String.ofList header) with
      | some s => .ok { p with current := some s }
      | none => .error (.unknownSection (String.ofList header))
    | none => (p.item line).map fun d => { p with collected := d }

/-- Reads lines, the first of which has the number `number`. -/
def Progress.steps (p : Progress α) (number : Nat) :
    List (List Char) → Except (Error α) (Progress α)
  | [] => .ok p
  | line :: lines =>
    match p.step line with
    | .error fault => .error (.definition number fault)
    | .ok p => p.steps (number + 1) lines

/-- Reads a definition. -/
def parse (text : String) : Except (Error α) (Definition α) :=
  (Progress.steps {} 1 (textLines text.toList)).map Progress.collected

end Definition

end ErrorBudget
