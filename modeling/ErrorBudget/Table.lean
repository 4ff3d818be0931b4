import ErrorBudget.Names
import ErrorBudget.Scalar

/-!
# Result tables

A table has a row for each variable of the equations that were solved: its value, its error, and
whether the error was given or calculated. The rows stand in the order of their stages, and within a
stage in the order of their names; rows outside of any stage come first.
-/

set_option autoImplicit false

namespace ErrorBudget

/-- The result for one variable. -/
structure Row (α : Type) where
  /-- The variable. -/
  name : String
  /-- Its value. -/
  value : α
  /-- Its error, given or calculated. -/
  error : α
  /-- The error in percent of the value, undefined if that is not a finite number. -/
  percent : α
  /-- Whether the error was calculated. -/
  isCalculated : Bool
  /-- The stage of a pipeline that the row belongs to, counted from one. -/
  stage : Option Nat
  deriving Repr

/-- An error in percent of a value. -/
def percentError {α : Type} [Scalar α] (error value : α) : α :=
  let percent := Scalar.ofDecimal 100 0 * Scalar.abs (error / value)
  if Scalar.isFinite percent then percent else Scalar.nan

namespace Row

variable {α : Type}

/-- The row of a variable outside of any stage. -/
def single [Scalar α] (name : String) (value error : α) (isCalculated : Bool) : Row α :=
  ⟨name, value, error, percentError error value, isCalculated, none⟩

/-- Whether a row may stand before another. -/
def le (a b : Row α) : Bool :=
  match a.stage, b.stage with
  | none, none => a.name ≤ b.name
  | none, some _ => true
  | some _, none => false
  | some i, some j => i < j || (i == j && a.name ≤ b.name)

/-- Puts a row in front of the first row that it may stand before. -/
def insert (row : Row α) : List (Row α) → List (Row α)
  | [] => [row]
  | r :: rows => if row.le r then row :: r :: rows else r :: insert row rows

/-- Inserting a row adds it and nothing else. -/
theorem insert_perm (row : Row α) (rows : List (Row α)) : (insert row rows).Perm (row :: rows) := by
  induction rows with
  | nil => exact .refl _
  | cons r rows ih =>
    unfold insert
    split
    · exact .refl _
    · exact (ih.cons r).trans (.swap row r rows)

end Row

/-- Results in the order of stages and names. -/
structure Table (α : Type) where
  /-- The rows. -/
  rows : List (Row α)
  deriving Repr

namespace Table

variable {α : Type}

/-- The table with given rows. Rows of the same stage and name keep their order. -/
def ofRows (rows : List (Row α)) : Table α :=
  ⟨rows.foldr Row.insert []⟩

/-- A table has the rows that it is made of. -/
theorem ofRows_perm (rows : List (Row α)) : (ofRows rows).rows.Perm rows := by
  induction rows with
  | nil => exact .refl _
  | cons row rows ih => exact (Row.insert_perm row _).trans (ih.cons row)

/-- The number of rows. -/
def size (t : Table α) : Nat := t.rows.length

/-- The row of a variable; of rows from several stages, that of the latest. -/
def get? (t : Table α) (name : String) : Option (Row α) :=
  t.rows.reverse.find? fun row => row.name == name

/-- The row of a variable in a stage. -/
def getInStage? (t : Table α) (stage : Nat) (name : String) : Option (Row α) :=
  t.rows.find? fun row => row.stage == some stage && row.name == name

/-- The rows whose errors were calculated. -/
def calculated (t : Table α) : List (Row α) :=
  t.rows.filter Row.isCalculated

/-- The table with all its rows assigned to a stage. -/
def withStage (t : Table α) (stage : Nat) : Table α :=
  ⟨t.rows.map fun row => { row with stage := some stage }⟩

/-- One table with the rows of several. -/
def concat (tables : List (Table α)) : Table α :=
  ofRows (tables.flatMap Table.rows)

end Table

end ErrorBudget
