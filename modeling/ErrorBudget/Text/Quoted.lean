import ErrorBudget.Text.Hidden

/-!
# Quoted texts

Texts in double quotes, for data exchange (`Quoted.exchanged`) and for the descriptions of equations
(`Quoted.described`). The quote and the backslash are written behind a backslash. Characters that
cannot be seen are written by a short escape, if there is one, or by their code.
-/

set_option autoImplicit false

namespace ErrorBudget

namespace Quoted

/-- The digits of a number in base sixteen, in lower case. -/
def hexadecimal (n : Nat) : String :=
  String.ofList (Nat.toDigits 16 n)

/-- A code with four digits. -/
def fourDigits (n : Nat) : String :=
  let text := hexadecimal n
  String.ofList (List.replicate (4 - text.length) '0') ++ text

/-- A character within quotes, for data exchange: all control characters below the blank are written
as escapes, and nothing else is. -/
def exchangedChar (c : Char) : String :=
  if c = '"' then "\\\""
  else if c = '\\' then "\\\\"
  else if c = '\n' then "\\n"
  else if c = '\r' then "\\r"
  else if c = '\t' then "\\t"
  else if c.toNat = 8 then "\\b"
  else if c.toNat = 12 then "\\f"
  else if c.toNat < 32 then "\\u" ++ fourDigits c.toNat
  else String.singleton c

/-- A text in quotes, for data exchange. -/
def exchanged (text : String) : String :=
  "\"" ++ String.join (text.toList.map exchangedChar) ++ "\""

/-- A character within quotes, in a description: hidden characters are written by their codes. -/
def describedChar (c : Char) : String :=
  if c = '"' then "\\\""
  else if c = '\\' then "\\\\"
  else if c = '\n' then "\\n"
  else if c = '\r' then "\\r"
  else if c = '\t' then "\\t"
  else if c.toNat = 0 then "\\0"
  else if isHidden c then "\\u\x7b" ++ hexadecimal c.toNat ++ "\x7d"
  else String.singleton c

/-- A text in quotes, in a description. -/
def described (text : String) : String :=
  "\"" ++ String.join (text.toList.map describedChar) ++ "\""

end Quoted

end ErrorBudget
