import ErrorBudget.Double
import ErrorBudget.Table
import ErrorBudget.Text.Quoted

/-!
# Tables for data exchange

A table in JSON: an array with an object for each row, two blanks deeper at each level, the fields
in the order of a row, and a number that is not finite written as null. The stage is left out
where there is none.
-/

set_option autoImplicit false

namespace ErrorBudget

namespace Table

/-- A number for data exchange. -/
def exchangedNumber (x : Float) : String :=
  if x.isFinite then (Binary.ofFloat x).exchanged else "null"

/-- The fields of a row with their values. -/
def exchangedFields (row : Row Float) : List (String × String) :=
  [("var", Quoted.exchanged row.name),
    ("value", exchangedNumber row.value),
    ("error", exchangedNumber row.error),
    ("pct_error", exchangedNumber row.percent),
    ("is_calc", if row.isCalculated then "true" else "false")]
  ++ match row.stage with
    | some stage => [("stage", toString stage)]
    | none => []

/-- A row as an object. -/
def exchangedRow (row : Row Float) : String :=
  let fields := (exchangedFields row).map fun (name, value) =>
    "    " ++ Quoted.exchanged name ++ ": " ++ value
  "  \x7b\n" ++ ",\n".intercalate fields ++ "\n  \x7d"

/-- A table as an array. -/
def exchanged (t : Table Float) : String :=
  if t.rows.isEmpty then "[]"
  else "[\n" ++ ",\n".intercalate (t.rows.map exchangedRow) ++ "\n]"

end Table

end ErrorBudget
