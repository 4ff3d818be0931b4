import ErrorBudget.Mat.Basic

/-!
# Inverse matrices

The inverse of a square matrix, if its determinant is not zero. Up to four rows the inverse is the
adjugate divided by the determinant. Larger matrices are brought to triangular form by
elimination, where the pivot of a column is its entry of largest magnitude; the identity then goes
through the same steps forwards and is solved for backwards.
-/

set_option autoImplicit false

namespace ErrorBudget

namespace Mat

variable {α : Type} [Scalar α]

/-- A quotient matrix: every entry divided by the determinant, which must not be zero. -/
def dividedBy? {n : Nat} (det : α) (f : Fin n → Fin n → α) : Option (Mat α n n) :=
  if det == 0 then none else some (ofFn fun i j => f i j / det)

/-- The inverse of a matrix of one row. -/
def inverseOne? (A : Mat α 1 1) : Option (Mat α 1 1) :=
  if A 0 0 == 0 then none else some (ofFn fun _ _ => 1 / A 0 0)

/-- The inverse of a matrix of two rows. -/
def inverseTwo? (A : Mat α 2 2) : Option (Mat α 2 2) :=
  dividedBy? (A 0 0 * A 1 1 - A 1 0 * A 0 1) fun i j =>
    match i, j with
    | 0, 0 => A 1 1
    | 0, 1 => -A 0 1
    | 1, 0 => -A 1 0
    | 1, 1 => A 0 0

/-- The inverse of a matrix of three rows, its determinant expanded along the first row. -/
def inverseThree? (A : Mat α 3 3) : Option (Mat α 3 3) :=
  let a := A 1 1 * A 2 2 - A 2 1 * A 1 2
  let b := A 1 0 * A 2 2 - A 2 0 * A 1 2
  let c := A 1 0 * A 2 1 - A 2 0 * A 1 1
  dividedBy? (A 0 0 * a - A 0 1 * b + A 0 2 * c) fun i j =>
    match i, j with
    | 0, 0 => a
    | 0, 1 => A 0 2 * A 2 1 - A 2 2 * A 0 1
    | 0, 2 => A 0 1 * A 1 2 - A 1 1 * A 0 2
    | 1, 0 => -b
    | 1, 1 => A 0 0 * A 2 2 - A 2 0 * A 0 2
    | 1, 2 => A 0 2 * A 1 0 - A 1 2 * A 0 0
    | 2, 0 => c
    | 2, 1 => A 0 1 * A 2 0 - A 2 1 * A 0 0
    | 2, 2 => A 0 0 * A 1 1 - A 1 0 * A 0 1

/-- Three of four indices, without the index `k`. -/
def skip (k : Fin 4) (i : Fin 3) : Fin 4 :=
  if i.castSucc < k then i.castSucc else i.succ

/-- The determinant of a matrix of four rows without the row `r` and the column `s`. -/
def minorFour (A : Mat α 4 4) (r s : Fin 4) : α :=
  let B (i j : Fin 3) : α := A (skip r i) (skip s j)
  B 0 0 * B 1 1 * B 2 2 - B 0 0 * B 2 1 * B 1 2 - B 0 1 * B 1 0 * B 2 2 + B 0 1 * B 2 0 * B 1 2
    + B 0 2 * B 1 0 * B 2 1 - B 0 2 * B 2 0 * B 1 1

/-- The minor of a row and a column with its sign. -/
def cofactorFour (A : Mat α 4 4) (r s : Fin 4) : α :=
  if (r.val + s.val) % 2 = 0 then minorFour A r s else -minorFour A r s

/-- The inverse of a matrix of four rows, its determinant expanded along the first column. -/
def inverseFour? (A : Mat α 4 4) : Option (Mat α 4 4) :=
  let det := total ((List.finRange 4).map fun i => A i 0 * cofactorFour A i 0)
  if det == 0 then none
  else
    let factor := 1 / det
    some (ofFn fun i j => cofactorFour A j i * factor)

section Elimination

variable {n : Nat}

/-- A matrix with two rows exchanged. -/
def swapRows (A : Mat α n n) (i k : Fin n) : Mat α n n :=
  ofFn fun r c => if r = i then A k c else if r = k then A i c else A r c

/-- The row at or below `i` whose entry in the column `i` has the largest magnitude; the first of
several. -/
def pivotRow (A : Mat α n n) (i : Fin n) : Fin n :=
  (List.finRange n).foldl
    (fun best r => if i < r ∧ Scalar.abs (A best i) < Scalar.abs (A r i) then r else best) i

/-- Clears the column `i` below the diagonal. The multiples that are subtracted stay in the place of
the entries that they clear. -/
def clearColumn (A : Mat α n n) (i : Fin n) : Mat α n n :=
  let factor := 1 / A i i
  ofFn fun r c =>
    if i < r then
      if c = i then A r i * factor
      else if i < c then A r c - A i c * (A r i * factor)
      else A r c
    else A r c

/-- The elimination of the column `i` from a matrix, where the second matrix goes through the same
exchanges of rows; it fails if there is no pivot. -/
def eliminate? (i : Fin n) : Mat α n n × Mat α n n → Option (Mat α n n × Mat α n n)
  | (A, B) =>
    let k := pivotRow A i
    if A k i == 0 then none
    else some (clearColumn (swapRows A i k) i, swapRows B i k)

/-- Subtracts from the rows below `i` their multiples of the row `i`. -/
def forwardStep (L B : Mat α n n) (i : Fin n) : Mat α n n :=
  ofFn fun r c => if i < r then B r c - B i c * L r i else B r c

/-- Divides the row `i` by its pivot and subtracts its multiples from the rows above. -/
def backwardStep (U B : Mat α n n) (i : Fin n) : Mat α n n :=
  ofFn fun r c =>
    let solved := B i c / U i i
    if r = i then solved else if r < i then B r c - solved * U r i else B r c

/-- The inverse by elimination. -/
def inverseByElimination? (A : Mat α n n) : Option (Mat α n n) := do
  let (T, B) ← (List.finRange n).foldlM (fun state i => eliminate? i state) (A, identity n)
  let forward := (List.finRange n).foldl (forwardStep T) B
  return (List.finRange n).reverse.foldl (backwardStep T) forward

end Elimination

/-- The inverse of a square matrix, if there is one; a matrix without rows is its own inverse. -/
def inverse? : {n : Nat} → Mat α n n → Option (Mat α n n)
  | 0, A => some A
  | 1, A => inverseOne? A
  | 2, A => inverseTwo? A
  | 3, A => inverseThree? A
  | 4, A => inverseFour? A
  | _ + 5, A => inverseByElimination? A

/-- A way to invert square matrices. -/
structure Inversion (α : Type) where
  /-- The inverse of a matrix, if one is found. -/
  find? : {n : Nat} → Mat α n n → Option (Mat α n n)

/-- The inversion by adjugates for small matrices and by elimination for large ones. -/
def Inversion.direct : Inversion α := ⟨inverse?⟩

end Mat

end ErrorBudget
