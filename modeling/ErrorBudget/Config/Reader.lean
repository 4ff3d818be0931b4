import ErrorBudget.Config
import ErrorBudget.Config.Number

/-!
# Reading configurations

A configuration text sets each of `tolerance`, `max_depth` and `max_nodes` at most once, one
setting to a line, and the others keep their standard values. Keys may be written in quotes, and a
number sign starts a comment. Whatever else stands in a text makes it unreadable.
-/

set_option autoImplicit false

namespace ErrorBudget

namespace Config

/-- Whether a character may stand between the parts of a line. -/
def isSpace (c : Char) : Bool := c = ' ' || c = '\t'

/-- Whether a character may stand in a comment or in quotes: any but the control characters. -/
def isPrintable (c : Char) : Bool :=
  c = '\t' || (0x20 ≤ c.toNat && c.toNat != 0x7F)

/-- Whether a key without quotes may contain a character. -/
def isKeyPart (c : Char) : Bool :=
  c.isAlphanum || c = '_' || c = '-'

/-- Whether nothing but a comment stands in a text. -/
def isTrailer (cs : List Char) : Bool :=
  match cs.dropWhile isSpace with
  | [] => true
  | c :: cs => c = '#' && cs.all isPrintable

/-- The character with a given code in base sixteen. -/
def escaped? (digits : List Char) : Option Char :=
  let n := ConfigNumber.valueIn 16 digits
  if digits.all ConfigNumber.isHexadecimal && n.isValidChar then some (Char.ofNat n) else none

/-- The rest of a key in double quotes, up to the closing quote, and the text behind that. Of the
escapes only those by a code can belong to a key that exists. -/
def quoted? : List Char → Option (List Char × List Char)
  | [] => none
  | '"' :: cs => some ([], cs)
  | '\\' :: 'u' :: a :: b :: c :: d :: cs => do
    let x ← escaped? [a, b, c, d]
    let (key, rest) ← quoted? cs
    return (x :: key, rest)
  | '\\' :: 'U' :: a :: b :: c :: d :: e :: f :: g :: h :: cs => do
    let x ← escaped? [a, b, c, d, e, f, g, h]
    let (key, rest) ← quoted? cs
    return (x :: key, rest)
  | '\\' :: _ => none
  | c :: cs =>
    if isPrintable c then do
      let (key, rest) ← quoted? cs
      return (c :: key, rest)
    else none

/-- The key at the front of a text, and the text behind it. -/
def key? : List Char → Option (List Char × List Char)
  | '"' :: cs => quoted? cs
  | '\'' :: cs =>
    match splitFirst? (· == '\'') cs with
    | some (key, rest) => if key.all isPrintable then some (key, rest) else none
    | none => none
  | cs => some (cs.takeWhile isKeyPart, cs.dropWhile isKeyPart)

/-- The key of a line that sets something, and the text of the value. -/
def assignment? (cs : List Char) : Option (String × List Char) := do
  let (key, rest) ← key? cs
  match rest.dropWhile isSpace with
  | '=' :: value =>
    let value := value.dropWhile isSpace
    let isPart (c : Char) : Bool := !isSpace c && c != '#'
    if isTrailer (value.dropWhile isPart) then
      some (String.ofList key, value.takeWhile isPart)
    else none
  | _ => none

variable {α : Type}

/-- What a configuration text has set so far. -/
structure Settings (α : Type) where
  /-- The tolerance. -/
  tolerance : Option α := none
  /-- The limit for the depth. -/
  depth : Option Nat := none
  /-- The limit for the number of nodes. -/
  size : Option Nat := none

variable [Scalar α]

/-- A value for something that has not been set yet. -/
def fresh? {β : Type} (old new : Option β) : Option (Option β) :=
  if old.isSome || new.isNone then none else some new

/-- Sets what a key stands for, if it stands for anything and has not been set yet. -/
def Settings.set? (s : Settings α) (key : String) (number : ConfigNumber α) :
    Option (Settings α) :=
  if key = "tolerance" then
    (fresh? s.tolerance number.toScalar?).map fun x => { s with tolerance := x }
  else if key = "max_depth" then
    (fresh? s.depth number.toNat?).map fun n => { s with depth := n }
  else if key = "max_nodes" then
    (fresh? s.size number.toNat?).map fun n => { s with size := n }
  else none

/-- Reads one line. -/
def Settings.line? (s : Settings α) (line : List Char) : Option (Settings α) :=
  if isTrailer line then some s
  else do
    let (key, value) ← assignment? (line.dropWhile isSpace)
    let number ← ConfigNumber.read? value
    s.set? key number

/-- A text without the mark of its byte order. -/
def withoutMark : List Char → List Char
  | '\uFEFF' :: cs => cs
  | cs => cs

/-- The settings of a text. -/
def settings? (text : String) : Option (Settings α) :=
  (textLines (withoutMark text.toList)).foldlM Settings.line? {}

/-- Reads a configuration, which must be valid. -/
def read (text : String) : Except (Error α) (Config α) :=
  match (settings? text : Option (Settings α)) with
  | none => .error (.config .unreadable)
  | some s =>
    let standard : Config α := Config.standard
    validate
      { tolerance := s.tolerance.getD standard.tolerance
        limits :=
          { depth := s.depth.getD standard.limits.depth
            size := s.size.getD standard.limits.size } }

end Config

end ErrorBudget
