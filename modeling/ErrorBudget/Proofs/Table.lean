import ErrorBudget.Table
import Mathlib.Data.String.Basic

/-!
# Order of the rows

However the rows of a table are given, they stand in the order of their stages and names
(`ofRows_sorted`). The names increase where no two rows share one and no row belongs to a stage.
-/

set_option autoImplicit false

namespace ErrorBudget

namespace Row

variable {α : Type} {a b c : Row α}

/-- The order of rows is total. -/
theorem le_of_not_le (h : ¬a.le b) : b.le a := by
  unfold le at h ⊢
  cases hi : a.stage with
  | none =>
    cases hj : b.stage with
    | none =>
      simp only [hi, hj, decide_eq_true_eq, not_le] at h ⊢
      exact h.le
    | some j => simp [hi, hj] at h
  | some i =>
    cases hj : b.stage with
    | none => rfl
    | some j =>
      simp only [hi, hj, Bool.or_eq_true, Bool.and_eq_true, decide_eq_true_eq, beq_iff_eq] at h ⊢
      rcases lt_trichotomy i j with hlt | rfl | hlt
      · exact absurd (.inl hlt) h
      · exact .inr ⟨rfl, le_of_lt (not_le.mp fun hle => h (.inr ⟨rfl, hle⟩))⟩
      · exact .inl hlt

/-- The order of rows is transitive. -/
theorem le_trans (hab : a.le b) (hbc : b.le c) : a.le c := by
  unfold le at hab hbc ⊢
  cases hi : a.stage <;> cases hj : b.stage <;> cases hk : c.stage <;>
    simp only [hi, hj, hk, Bool.or_eq_true, Bool.and_eq_true, decide_eq_true_eq, beq_iff_eq,
      Bool.false_eq_true] at hab hbc ⊢
  · exact String.le_trans hab hbc
  · rcases hab with hab | ⟨rfl, hab⟩
    · rcases hbc with hbc | ⟨rfl, -⟩
      · exact .inl (hab.trans hbc)
      · exact .inl hab
    · rcases hbc with hbc | ⟨rfl, hbc⟩
      · exact .inl hbc
      · exact .inr ⟨rfl, String.le_trans hab hbc⟩

/-- A row is inserted in its place. -/
theorem insert_sorted {row : Row α} {rows : List (Row α)} (h : rows.Pairwise fun a b => a.le b) :
    (insert row rows).Pairwise fun a b => a.le b := by
  induction rows with
  | nil => exact List.pairwise_singleton ..
  | cons r rows ih =>
    obtain ⟨hr, hrows⟩ := List.pairwise_cons.mp h
    unfold insert
    split
    · rename_i hle
      refine List.pairwise_cons.mpr ⟨fun a ha => ?_, h⟩
      rcases List.mem_cons.mp ha with rfl | ha
      · exact hle
      · exact le_trans hle (hr a ha)
    · rename_i hnot
      refine List.pairwise_cons.mpr ⟨fun a ha => ?_, ih hrows⟩
      rcases List.mem_cons.mp ((insert_perm row rows).mem_iff.mp ha) with rfl | ha
      · exact le_of_not_le hnot
      · exact hr a ha

end Row

namespace Table

variable {α : Type} {rows : List (Row α)}

/-- The rows of a table stand in their order. -/
theorem ofRows_sorted (rows : List (Row α)) : (ofRows rows).rows.Pairwise fun a b => a.le b := by
  induction rows with
  | nil => exact .nil
  | cons row rows ih => exact Row.insert_sorted ih

/-- Sorted rows with different names that belong to no stage have increasing names. -/
theorem names_increasing (hsorted : rows.Pairwise fun a b => a.le b)
    (hstage : ∀ row ∈ rows, row.stage = none) (hnames : (rows.map Row.name).Nodup) :
    rows.Pairwise fun a b => a.name < b.name := by
  have hdistinct : rows.Pairwise fun a b => a.name ≠ b.name := List.pairwise_map.mp hnames
  refine (hsorted.and hdistinct).imp_of_mem fun {a b} ha hb h => ?_
  have hle := h.1
  simp only [Row.le, hstage a ha, hstage b hb, decide_eq_true_eq] at hle
  exact lt_of_le_of_ne hle h.2

end Table

end ErrorBudget
