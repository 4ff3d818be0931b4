/-!
# Indices in texts

A position in a list is written in decimal, with an optional plus sign, and must fit into a machine
word of 64 bits. Positions are added in such a word too: a sum that does not fit wraps around.
-/

set_option autoImplicit false

namespace ErrorBudget

/-- The natural number that a list of decimal digits stands for. -/
def digitsValue (cs : List Char) : Nat :=
  cs.foldl (fun n c => 10 * n + (c.toNat - '0'.toNat)) 0

/-- The largest index that can be written, `2 ^ 64 - 1`. -/
def largestIndex : Nat := 18446744073709551615

/-- The sum of two indices in a machine word, which starts again at 0 behind the largest index. -/
def addIndex (i j : Nat) : Nat := (i + j) % (largestIndex + 1)

/-- A sum of indices is at most the sum of the numbers. -/
theorem addIndex_le (i j : Nat) : addIndex i j ≤ i + j := Nat.mod_le _ _

/-- The sum of two indices is exact if it can be written as an index, and only then. -/
theorem addIndex_eq_add_iff {i j : Nat} : addIndex i j = i + j ↔ i + j ≤ largestIndex :=
  Nat.mod_eq_iff_lt (Nat.succ_ne_zero _) |>.trans Nat.lt_succ_iff

/-- A number of decimal digits that is not above the largest index. -/
def readDigits? (cs : List Char) : Option Nat :=
  if cs.isEmpty || !cs.all Char.isDigit then none
  else
    let n := digitsValue cs
    if n ≤ largestIndex then some n else none

/-- An index with an optional plus sign. -/
def readIndex? : List Char → Option Nat
  | '+' :: cs => readDigits? cs
  | cs => readDigits? cs

end ErrorBudget
