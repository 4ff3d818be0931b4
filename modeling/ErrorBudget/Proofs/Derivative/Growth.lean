import ErrorBudget.Expr.Derivative
import ErrorBudget.Proofs.Undefined
import Mathlib

/-!
# Sizes of derivatives

A rule of differentiation copies the operands of the node that it is applied to, but the derivatives
of the operands stand in its result once each. So every node adds at most five times the size of the
subterm that it is the root of, and a derivative is no larger than five times all subterms together
(`Expr.size_derive_le_totalSize`). On its way down to the leaves an expression is never larger than
on the whole (`Expr.totalSize_le`), which makes the size of a derivative at most quadratic
(`Expr.size_derive_le`).
-/

set_option autoImplicit false

namespace ErrorBudget

namespace Expr

variable {α : Type}

/-- The sizes of all subterms of an expression together: each node counts once for every subterm
that it stands in. -/
def totalSize (e : Expr α) : Nat := (e.subterms.map size).sum

section Subterms

variable (f : Func) (u v : Expr α)

/-- The total size of a call counts the call itself and the subterms of its argument. -/
theorem totalSize_call : (call f u).totalSize = 1 + u.size + u.totalSize := by
  simp [totalSize, subterms, size]

/-- The total size of an operation counts the operation itself and the subterms of its operands. -/
theorem totalSize_operation {e : Expr α} (h : e.subterms = e :: (u.subterms ++ v.subterms))
    (hsize : e.size = 1 + u.size + v.size) :
    e.totalSize = 1 + u.size + v.size + u.totalSize + v.totalSize := by
  simp [totalSize, h, hsize, Nat.add_assoc]

end Subterms

/-- A node stands in no more subterms than there are on the longest way to a leaf. -/
theorem totalSize_le (e : Expr α) : e.totalSize ≤ e.size * e.depth := by
  have operation {u v : Expr α} (hu : u.totalSize ≤ u.size * u.depth)
      (hv : v.totalSize ≤ v.size * v.depth) :
      1 + u.size + v.size + u.totalSize + v.totalSize ≤
        (1 + u.size + v.size) * (1 + max u.depth v.depth) := by
    have hu' : u.size * u.depth ≤ u.size * max u.depth v.depth :=
      Nat.mul_le_mul_left _ (Nat.le_max_left _ _)
    have hv' : v.size * v.depth ≤ v.size * max u.depth v.depth :=
      Nat.mul_le_mul_left _ (Nat.le_max_right _ _)
    calc 1 + u.size + v.size + u.totalSize + v.totalSize
        ≤ 1 + u.size + v.size + (u.size * max u.depth v.depth + v.size * max u.depth v.depth) := by
          omega
      _ = 1 + u.size + v.size + (u.size + v.size) * max u.depth v.depth := by rw [Nat.add_mul]
      _ ≤ 1 + u.size + v.size + (1 + u.size + v.size) * max u.depth v.depth :=
          Nat.add_le_add_left (Nat.mul_le_mul_right _ (by omega)) _
      _ = (1 + u.size + v.size) * (1 + max u.depth v.depth) := by rw [Nat.mul_add, Nat.mul_one]
  induction e with
  | number x | symbol name | constant c => exact Nat.le_refl 1
  | call f u ih =>
    calc (call f u).totalSize = 1 + u.size + u.totalSize := totalSize_call f u
      _ ≤ 1 + u.size + u.size * u.depth := Nat.add_le_add_left ih _
      _ ≤ 1 + u.size + (1 + u.size) * u.depth :=
          Nat.add_le_add_left (Nat.mul_le_mul_right _ (by omega)) _
      _ = (1 + u.size) * (1 + u.depth) := by rw [Nat.mul_add, Nat.mul_one]
  | add u v ihu ihv | sub u v ihu ihv | mul u v ihu ihv | div u v ihu ihv | pow u v ihu ihv =>
    rw [totalSize_operation u v rfl rfl]
    exact operation ihu ihv

variable [Scalar α]

section Rules

variable (u v u' v' : Expr α)

/-- A negative is at most two nodes larger. -/
theorem size_negate_le : (negate u).size ≤ u.size + 2 := by
  cases u <;> simp only [negate, size] <;> omega

/-- A square is two nodes larger. -/
theorem size_square : (square u).size = u.size + 2 := by
  simp only [square, size]
  omega

/-- A sum adds at most one node to its terms. -/
theorem size_sum_le : (sum u v).size ≤ u.size + v.size + 1 := by
  unfold sum
  split_ifs
  · omega
  · omega
  · rw [size]
    omega

/-- A difference adds at most one node to its terms. -/
theorem size_difference_le : (difference u v).size ≤ u.size + v.size + 1 := by
  have hnegate := size_negate_le v
  have hpos := u.size_pos
  unfold difference
  split_ifs
  · omega
  · omega
  · rw [size]
    omega

/-- A product adds at most one node to its factors. -/
theorem size_product_le : (product u v).size ≤ u.size + v.size + 1 := by
  unfold product
  split_ifs
  · rw [zero, size]
    omega
  · omega
  · omega
  · rw [size]
    omega

/-- A scaled product adds at most one node to its factors. -/
theorem size_scaled_le : (scaled u v).size ≤ u.size + v.size + 1 := by
  unfold scaled
  split_ifs
  · rw [zero, size]
    omega
  · omega
  · omega
  · rw [size]
    omega

/-- A quotient adds at most one node to its parts. -/
theorem size_quotient_le : (quotient u v).size ≤ u.size + v.size + 1 := by
  unfold quotient
  split_ifs
  · rw [zero, size]
    omega
  · rw [size]
    omega

/-- The chain rule copies the argument of a call at most twice, and its derivative once. -/
theorem size_chain_le (f : Func) : (chain f u u').size ≤ 2 * u.size + u'.size + 7 := by
  have hpos := u.size_pos
  have hscaled {w : Expr α} (hw : w.size ≤ 2 * u.size + 6) :
      (scaled w u').size ≤ 2 * u.size + u'.size + 7 := by
    have h := size_scaled_le w u'
    omega
  have hquotient {w w' : Expr α} (hw : w.size + w'.size ≤ 2 * u.size + u'.size + 6) :
      (quotient w w').size ≤ 2 * u.size + u'.size + 7 := by
    have h := size_quotient_le w w'
    omega
  -- The rules are grouped by their shape: a factor in front, a negated factor, or a quotient.
  cases f with
  | sin | cosh | sinh | exp | abs | tan | sec | tanh =>
    apply hscaled
    simp only [size_square, one, size]
    omega
  | cos | cot | csc =>
    apply hscaled
    refine Nat.le_trans (size_negate_le _) ?_
    simp only [size_square, size]
    omega
  | acos =>
    have hnegate := size_negate_le u'
    apply hquotient
    simp only [size_square, one, size]
    omega
  | asin | atan | asinh | acosh | atanh | sqrt =>
    apply hquotient
    simp only [size_square, one, size]
    omega
  | log | ln =>
    apply hquotient
    omega
  | sign =>
    rw [chain, zero, size]
    omega

/-- The quotient rule copies the denominator once, and adds at most six nodes. -/
theorem size_quotientRule_le :
    (quotientRule u v u' v').size ≤ u.size + 2 * v.size + u'.size + v'.size + 6 := by
  have hleft := size_product_le u' v
  have hright := size_product_le u v'
  have hnegate := size_negate_le (product u v')
  unfold quotientRule
  dsimp only
  split_ifs
  · rw [zero, size]
    omega
  · omega
  · rw [size]
    omega
  · rw [size, size_square]
    omega
  · rw [size, size, size_square]
    omega

/-- A power with its exponent lowered has at most three nodes more than its parts. -/
theorem size_lowered_le : (lowered u v).size ≤ u.size + v.size + 3 := by
  unfold lowered
  split
  · split_ifs
    · omega
    · simp only [size]
      omega
  · simp only [one, size]
    omega

/-- The power rule copies the exponent once, and adds at most five nodes. -/
theorem size_powerRule_le : (powerRule u v u').size ≤ u.size + 2 * v.size + u'.size + 5 := by
  have hlowered := size_lowered_le u v
  have hinner := size_product_le (lowered u v) u'
  have houter := size_product_le v (product (lowered u v) u')
  unfold powerRule
  split_ifs
  · rw [zero, size]
    omega
  · rw [zero, size]
    omega
  · omega
  · omega

/-- The rule for varying exponents copies the base twice and the exponent once, and adds at most
seven nodes. -/
theorem size_exponentRule_le :
    (exponentRule u v u' v').size ≤ 3 * u.size + 2 * v.size + u'.size + v'.size + 7 := by
  unfold exponentRule
  dsimp only
  generalize hleft : product v' (call .log u) = left
  generalize hright : (if u'.isNegligible then zero else product v (div u' u)) = right
  have hleft' : left.size ≤ v'.size + u.size + 2 := by
    have h := size_product_le v' (call .log u)
    rw [hleft, size] at h
    omega
  have hright' : right.size ≤ u.size + v.size + u'.size + 2 := by
    have h := size_product_le v (div u' u)
    rw [size] at h
    rw [← hright]
    split_ifs
    · rw [zero, size]
      omega
    · omega
  have hsum := size_sum_le left right
  have hproduct := size_product_le (pow u v) (sum left right)
  rw [size] at hproduct
  omega

end Rules

/-- Every node adds at most five times the size of its subterm to a derivative. -/
theorem size_derive_le_totalSize (x : String) (e : Expr α) :
    (derive x e).size ≤ 5 * e.totalSize := by
  -- What the rule for a node adds to the derivatives of its operands is bounded by `k`.
  have operation {u v w : Expr α} (k : Nat) (hu : (derive x u).size ≤ 5 * u.totalSize)
      (hv : (derive x v).size ≤ 5 * v.totalSize)
      (hw : w.size ≤ k + (derive x u).size + (derive x v).size)
      (hk : k ≤ 5 * (1 + u.size + v.size)) :
      w.size ≤ 5 * (1 + u.size + v.size + u.totalSize + v.totalSize) := by
    omega
  induction e with
  | number x | constant c => exact (by decide : 1 ≤ 5 * 1)
  | symbol name =>
    unfold derive
    split_ifs
    · exact (by decide : 1 ≤ 5 * 1)
    · exact (by decide : 1 ≤ 5 * 1)
  | call f u ih =>
    have hpos := u.size_pos
    have hchain := size_chain_le u (derive x u) f
    rw [totalSize_call]
    unfold derive
    split_ifs
    · omega
    · rw [zero, size]
      omega
  | add u v ihu ihv =>
    have hsum := size_sum_le (derive x u) (derive x v)
    rw [totalSize_operation u v rfl rfl, derive]
    exact operation 1 ihu ihv (by omega) (by omega)
  | sub u v ihu ihv =>
    have hdifference := size_difference_le (derive x u) (derive x v)
    rw [totalSize_operation u v rfl rfl, derive]
    exact operation 1 ihu ihv (by omega) (by omega)
  | mul u v ihu ihv =>
    have hleft := size_product_le (derive x u) v
    have hright := size_product_le u (derive x v)
    have hsum := size_sum_le (product (derive x u) v) (product u (derive x v))
    rw [totalSize_operation u v rfl rfl, derive]
    exact operation (u.size + v.size + 3) ihu ihv (by omega) (by omega)
  | div u v ihu ihv =>
    have hpos := u.size_pos
    have hquotient := size_quotientRule_le u v (derive x u) (derive x v)
    rw [totalSize_operation u v rfl rfl, derive]
    exact operation (u.size + 2 * v.size + 6) ihu ihv (by omega) (by omega)
  | pow u v ihu ihv =>
    have hpos := u.size_pos
    have hexponent := size_exponentRule_le u v (derive x u) (derive x v)
    have hpower := size_powerRule_le u v (derive x u)
    rw [totalSize_operation u v rfl rfl, derive]
    refine operation (3 * u.size + 2 * v.size + 7) ihu ihv ?_ (by omega)
    split_ifs
    · omega
    · omega

/-- The derivative of an expression is at most as large as eleven times its size, taken once for
each node on its longest way to a leaf. -/
theorem size_derive_le (x : String) (e : Expr α) :
    (derive x e).size ≤ 11 * e.size * e.depth :=
  calc (derive x e).size ≤ 5 * e.totalSize := size_derive_le_totalSize x e
    _ ≤ 5 * (e.size * e.depth) := Nat.mul_le_mul_left 5 e.totalSize_le
    _ ≤ 11 * (e.size * e.depth) := Nat.mul_le_mul_right _ (by decide)
    _ = 11 * e.size * e.depth := (Nat.mul_assoc 11 e.size e.depth).symm

end Expr

end ErrorBudget
