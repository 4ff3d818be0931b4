/-!
# Columns

Texts brought to a common width by blanks. The width of a text is the number of its characters; a
text that is wider already stays as it is.
-/

set_option autoImplicit false

namespace ErrorBudget

/-- As many blanks as asked for. -/
def blanks (n : Nat) : String :=
  String.ofList (List.replicate n ' ')

/-- A text at the left edge of a column. -/
def alignLeft (width : Nat) (text : String) : String :=
  text ++ blanks (width - text.length)

/-- A text at the right edge of a column. -/
def alignRight (width : Nat) (text : String) : String :=
  blanks (width - text.length) ++ text

end ErrorBudget
