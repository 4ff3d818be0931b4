import ErrorBudget.Scalar

/-!
# Matrices

Matrices with a fixed number of rows and columns, stored row by row. A matrix is seen through its
entries: it is made by `ofFn` from a function of row and column, and `ofFn_apply` says that it has
these entries. Sums of products are added from left to right, starting with the first product, so a
sum without terms is zero and a sum of one term is that term.
-/

set_option autoImplicit false

namespace ErrorBudget

/-- A matrix of `m` rows and `n` columns. -/
structure Mat (α : Type) (m n : Nat) where
  /-- The rows, from top to bottom. -/
  rows : Vector (Vector α n) m
  deriving Repr

namespace Mat

variable {α : Type} {m n : Nat}

/-- The entry in a row and a column. -/
def entry (A : Mat α m n) (i : Fin m) (j : Fin n) : α := A.rows[i][j]

/-- A matrix is applied to a row and a column. -/
instance : CoeFun (Mat α m n) fun _ => Fin m → Fin n → α := ⟨entry⟩

/-- The matrix with given entries. -/
def ofFn (f : Fin m → Fin n → α) : Mat α m n :=
  ⟨Vector.ofFn fun i => Vector.ofFn fun j => f i j⟩

/-- A matrix that is made of a function has its values as entries. -/
@[simp] theorem ofFn_apply (f : Fin m → Fin n → α) (i : Fin m) (j : Fin n) :
    ofFn f i j = f i j := by
  simp [ofFn, entry]

/-- Two matrices with the same entries are equal. -/
theorem ext_apply {A B : Mat α m n} (h : ∀ i j, A i j = B i j) : A = B := by
  obtain ⟨a⟩ := A
  obtain ⟨b⟩ := B
  congr 1
  apply Vector.ext
  intro i hi
  apply Vector.ext
  intro j hj
  exact h ⟨i, hi⟩ ⟨j, hj⟩

/-- A matrix as a list of rows. -/
def toLists (A : Mat α m n) : List (List α) :=
  A.rows.toList.map Vector.toList

/-- The matrix with a function applied to each entry. -/
def map {β : Type} (f : α → β) (A : Mat α m n) : Mat β m n :=
  ofFn fun i j => f (A i j)

/-- Whether every entry satisfies a test. -/
def all (p : α → Bool) (A : Mat α m n) : Bool :=
  A.rows.all fun row => row.all p

/-- The same matrix under another name for the number of its rows. -/
def castRows {m' : Nat} (h : m = m') (A : Mat α m n) : Mat α m' n :=
  ofFn fun i j => A (i.cast h.symm) j

variable [Scalar α]

/-- The sum of a list of numbers, from left to right. -/
def total : List α → α
  | [] => 0
  | x :: xs => xs.foldl (· + ·) x

/-- The product of a matrix and a column. -/
def mulVec (A : Mat α m n) (x : Vector α n) : Vector α m :=
  Vector.ofFn fun i => total ((List.finRange n).map fun j => A i j * x[j])

/-- The entrywise sum of two columns. -/
def addVec (x y : Vector α n) : Vector α n :=
  Vector.ofFn fun i => x[i] + y[i]

/-- The matrix with ones on its diagonal and zeros elsewhere. -/
def identity (n : Nat) : Mat α n n :=
  ofFn fun i j => if i = j then 1 else 0

end Mat

end ErrorBudget
