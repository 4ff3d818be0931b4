/-!
# Blanks, lines and words

Texts are read line by line and word by word. A blank is a character with the Unicode property
White_Space; a line ends at a line feed, with a carriage return before it counted to the ending.
-/

set_option autoImplicit false

namespace ErrorBudget

/-- Whether a character has the property White_Space. -/
def isBlank (c : Char) : Bool :=
  let n := c.toNat
  (9 ≤ n && n ≤ 13) || n = 0x20 || n = 0x85 || n = 0xA0 || n = 0x1680 ||
    (0x2000 ≤ n && n ≤ 0x200A) || n = 0x2028 || n = 0x2029 || n = 0x202F || n = 0x205F || n = 0x3000

/-- Takes blanks off both ends. -/
def trimBlanks (cs : List Char) : List Char :=
  ((cs.dropWhile isBlank).reverse.dropWhile isBlank).reverse

/-- The text up to the first character that satisfies `p`, and the text behind that character, if
there is one. -/
def splitFirst? (p : Char → Bool) (cs : List Char) : Option (List Char × List Char) :=
  match cs.dropWhile fun c => !p c with
  | [] => none
  | _ :: after => some (cs.takeWhile fun c => !p c, after)

/-- The pieces of a text between the characters that satisfy `p`; there is one piece more than there
are such characters. -/
def pieces (p : Char → Bool) : List Char → List (List Char)
  | [] => [[]]
  | c :: cs =>
    if p c then [] :: pieces p cs
    else
      match pieces p cs with
      | [] => [[c]]
      | piece :: rest => (c :: piece) :: rest

/-- A line without the carriage return that belongs to its ending. -/
def dropReturn (cs : List Char) : List Char :=
  if cs.getLast? = some '\r' then cs.dropLast else cs

/-- The lines of a text, without their endings. -/
def textLines (cs : List Char) : List (List Char) :=
  let all := pieces (· == '\n') cs
  match all.getLast? with
  | some [] => all.dropLast.map dropReturn
  | some last => all.dropLast.map dropReturn ++ [last]
  | none => []

/-- The words of a text: the longest pieces without a blank. -/
def textWords (cs : List Char) : List (List Char) :=
  (pieces isBlank cs).filter fun word => !word.isEmpty

end ErrorBudget
