import ErrorBudget.Text.Index

/-!
# Decimal literals

A decimal literal is a run of digits, a point with another run of digits, and an exponent, each
of the last two optional. `Literal.scan` takes the longest literal off the front of a text. An
exponent belongs to it only if at least one digit follows its mark and sign; otherwise the mark is
left for what comes next.
-/

set_option autoImplicit false

namespace ErrorBudget

/-- The exponent of a literal. -/
structure Literal.Exponent where
  /-- The letter in front. -/
  mark : Char
  /-- The sign, if one is written. -/
  sign : Option Char
  /-- The digits. -/
  digits : List Char
  deriving DecidableEq, Repr

/-- A decimal literal in its parts. -/
structure Literal where
  /-- The digits before the point. -/
  whole : List Char
  /-- The digits behind the point, if there is a point. -/
  fraction : Option (List Char)
  /-- The exponent, if there is one. -/
  exponent : Option Literal.Exponent
  deriving DecidableEq, Repr

namespace Literal

/-- The characters of an exponent. -/
def Exponent.chars (e : Exponent) : List Char :=
  e.mark :: (e.sign.toList ++ e.digits)

/-- The characters of a fraction, the point included. -/
def fractionChars : Option (List Char) → List Char
  | some digits => '.' :: digits
  | none => []

/-- The characters of a literal. -/
def chars (l : Literal) : List Char :=
  l.whole ++ fractionChars l.fraction ++
    match l.exponent with
    | some e => e.chars
    | none => []

/-- The exponent of ten that is written. -/
def Exponent.value (e : Exponent) : Int :=
  if e.sign = some '-' then -(digitsValue e.digits : Int) else digitsValue e.digits

/-- The digits of a literal before and behind the point. -/
def mantissa (l : Literal) : List Char :=
  l.whole ++ l.fraction.getD []

/-- The literal as `m * 10 ^ e`; there is none if it has no digit before its exponent. -/
def value? (l : Literal) : Option (Nat × Int) :=
  if l.mantissa.isEmpty then none
  else
    let shift : Int := (l.fraction.getD []).length
    let written : Int := match l.exponent with | some e => e.value | none => 0
    some (digitsValue l.mantissa, written - shift)

/-- Takes a point and the digits behind it off the front of a text. -/
def scanFraction : List Char → Option (List Char) × List Char
  | '.' :: cs => (some (cs.takeWhile Char.isDigit), cs.dropWhile Char.isDigit)
  | cs => (none, cs)

/-- Whether a character marks an exponent. -/
def isMark (c : Char) : Bool := c = 'e' || c = 'E'

/-- Whether a character is the sign of an exponent. -/
def isSign (c : Char) : Bool := c = '+' || c = '-'

/-- Takes the digits of an exponent off the front of a text, given what stands before them. -/
def scanDigits (mark : Char) (sign : Option Char) (cs : List Char) :
    Option (Exponent × List Char) :=
  match cs.takeWhile Char.isDigit with
  | [] => none
  | d :: ds => some (⟨mark, sign, d :: ds⟩, cs.dropWhile Char.isDigit)

/-- Takes an exponent off the front of a text, if there is a complete one. -/
def scanExponent : List Char → Option (Exponent × List Char)
  | [] => none
  | c :: cs =>
    if isMark c then
      match cs with
      | [] => none
      | s :: rest => if isSign s then scanDigits c (some s) rest else scanDigits c none cs
    else none

/-- Takes the longest literal off the front of a text. -/
def scan (cs : List Char) : Literal × List Char :=
  let whole := cs.takeWhile Char.isDigit
  let (fraction, afterFraction) := scanFraction (cs.dropWhile Char.isDigit)
  match scanExponent afterFraction with
  | some (exponent, rest) => (⟨whole, fraction, some exponent⟩, rest)
  | none => (⟨whole, fraction, none⟩, afterFraction)

/-- What is scanned of a fraction and what is left make up the text. -/
theorem scanFraction_append (cs : List Char) :
    fractionChars (scanFraction cs).1 ++ (scanFraction cs).2 = cs := by
  unfold scanFraction
  split <;> simp [fractionChars]

/-- What is scanned of an exponent's digits and what is left make up the text behind the number. -/
theorem scanDigits_append {mark : Char} {sign : Option Char} {cs rest : List Char} {e : Exponent}
    (h : scanDigits mark sign cs = some (e, rest)) :
    e.chars ++ rest = mark :: (sign.toList ++ cs) := by
  unfold scanDigits at h
  split at h
  · simp at h
  · next d ds hd =>
    simp only [Option.some.injEq, Prod.mk.injEq] at h
    obtain ⟨rfl, rfl⟩ := h
    have hcs : cs = d :: ds ++ cs.dropWhile Char.isDigit := by
      rw [← hd, List.takeWhile_append_dropWhile]
    simpa [Exponent.chars] using hcs.symm

/-- What is scanned of an exponent and what is left make up the text. -/
theorem scanExponent_append {cs rest : List Char} {e : Exponent}
    (h : scanExponent cs = some (e, rest)) : e.chars ++ rest = cs := by
  cases cs with
  | nil => simp [scanExponent] at h
  | cons c cs =>
    cases cs with
    | nil => simp [scanExponent] at h
    | cons s cs =>
      simp only [scanExponent] at h
      split at h
      · split at h
        · simpa using scanDigits_append h
        · simpa using scanDigits_append h
      · simp at h

/-- Scanning loses nothing: the literal and the rest make up the text. -/
theorem scan_append (cs : List Char) : (scan cs).1.chars ++ (scan cs).2 = cs := by
  have hw : cs.takeWhile Char.isDigit ++ cs.dropWhile Char.isDigit = cs :=
    List.takeWhile_append_dropWhile
  have hf := scanFraction_append (cs.dropWhile Char.isDigit)
  unfold scan
  dsimp only
  split
  · next e rest he =>
    have := scanExponent_append he
    simp only [chars, List.append_assoc, this, hf, hw]
  · simp only [chars, List.append_nil, List.append_assoc, hf, hw]

end Literal

end ErrorBudget
