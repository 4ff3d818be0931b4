import ErrorBudget.Double
import ErrorBudget.Table
import ErrorBudget.Text.Columns

/-!
# Tables as texts

A table is written with one line for its header and one for each row. Values and errors have six
places after the point, percentages four. The column of names is as wide as the longest name is in
bytes, and the column of stages is written only if a row has a stage.
-/

set_option autoImplicit false

namespace ErrorBudget

namespace Table

/-- The width of the column of names. -/
def nameWidth (t : Table Float) : Nat :=
  (t.rows.map fun row => row.name.utf8ByteSize).foldl max "var".length

/-- A line of a table: the stage, if stages are shown, and the other columns. -/
def line (width : Nat) (stage : Option String) (name value error percent isCalculated : String) :
    String :=
  (match stage with
    | some text => alignRight 5 text ++ "  "
    | none => "")
  ++ alignLeft width name ++ "  " ++ alignRight 14 value ++ "  " ++ alignRight 14 error ++ "  "
  ++ alignRight 10 percent ++ "  " ++ alignRight 7 isCalculated ++ "\n"

/-- A number in a table. -/
def cell (places : Nat) (x : Float) : String :=
  floatText (Binary.fixed places) x

/-- The stage of a row in a table that shows stages. -/
def stageText : Option Nat → String
  | some stage => toString stage
  | none => ""

/-- A table as a text. -/
def text (t : Table Float) : String :=
  let staged := t.rows.any fun row => row.stage.isSome
  let width := t.nameWidth
  let header :=
    line width (if staged then some "stage" else none) "var" "value" "error" "pct_error" "is_calc"
  let rows := t.rows.map fun row =>
    line width (if staged then some (stageText row.stage) else none) row.name (cell 6 row.value)
      (cell 6 row.error) (cell 4 row.percent) (if row.isCalculated then "true" else "false")
  header ++ String.join rows

end Table

end ErrorBudget
