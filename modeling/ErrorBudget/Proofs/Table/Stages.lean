import ErrorBudget.Proofs.Table
import Mathlib.Data.List.Nodup

/-!
# Tables of several stages

The tables of consecutive stages are joined into one (`Table.Joins`): its rows are those of all
tables with the numbers of their stages, a variable of a stage has the row that its table has, and
without a stage the row of the latest stage counts. Joining is what `Table.concat` does
(`Table.joins_concat`), and nothing else does it (`Table.Joins.eq`), as long as no two rows of one
table share a name.
-/

set_option autoImplicit false

namespace ErrorBudget

namespace Row

variable {α : Type}

/-- The row as one of a stage. -/
def inStage (k : Nat) (row : Row α) : Row α := { row with stage := some k }

/-- Rows in order are in the order of their stages. -/
theorem stage_le_of_le {a b : Row α} {i j : Nat} (ha : a.stage = some i) (hb : b.stage = some j)
    (h : a.le b) : i ≤ j := by
  simp only [le, ha, hb, Bool.or_eq_true, Bool.and_eq_true, decide_eq_true_eq, beq_iff_eq] at h
  omega

/-- Rows that are equal in the order have the same stage and name. -/
theorem name_eq_of_le_of_le {a b : Row α} (hab : a.le b) (hba : b.le a) :
    a.stage = b.stage ∧ a.name = b.name := by
  unfold le at hab hba
  cases ha : a.stage with
  | none =>
    cases hb : b.stage with
    | none =>
      simp only [ha, hb, decide_eq_true_eq] at hab hba
      exact ⟨rfl, le_antisymm hab hba⟩
    | some j => simp [ha, hb] at hba
  | some i =>
    cases hb : b.stage with
    | none => simp [ha, hb] at hab
    | some j =>
      simp only [ha, hb, Bool.or_eq_true, Bool.and_eq_true, decide_eq_true_eq, beq_iff_eq]
        at hab hba
      have hij : i = j := by omega
      have hname : a.name ≤ b.name ∧ b.name ≤ a.name := by
        constructor
        · exact (hab.resolve_left (by omega)).2
        · exact (hba.resolve_left (by omega)).2
      exact ⟨by rw [hij], le_antisymm hname.1 hname.2⟩

end Row

namespace Table

variable {α : Type} {t t' : Table α} {tables : List (Table α)} {x : String} {row : Row α}

/-- No two rows share a name. -/
def HasDistinctNames (t : Table α) : Prop := (t.rows.map Row.name).Nodup

/-- No row is found exactly if none has the name. -/
theorem get?_eq_none_iff : t.get? x = none ↔ ∀ row ∈ t.rows, row.name ≠ x := by
  simp [get?]

/-- A row is found exactly if one has the name. -/
theorem exists_get?_iff : (∃ row, t.get? x = some row) ↔ ∃ row ∈ t.rows, row.name = x := by
  rw [← Option.isSome_iff_exists, ← Option.ne_none_iff_isSome, Ne, get?_eq_none_iff]
  push Not
  rfl

/-- A row that is found is one of the table, with the name. -/
theorem mem_of_get?_eq_some (h : t.get? x = some row) : row ∈ t.rows ∧ row.name = x := by
  have hname := List.find?_some h
  exact ⟨List.mem_reverse.mp (List.mem_of_find?_eq_some h), by simpa using hname⟩

/-- Where names are distinct, every row is found under its name. -/
theorem HasDistinctNames.get?_eq_some_iff (h : t.HasDistinctNames) :
    t.get? x = some row ↔ row ∈ t.rows ∧ row.name = x := by
  refine ⟨mem_of_get?_eq_some, ?_⟩
  rintro ⟨hmem, hname⟩
  obtain ⟨found, hfound⟩ := exists_get?_iff.mpr ⟨row, hmem, hname⟩
  obtain ⟨hmem', hname'⟩ := mem_of_get?_eq_some hfound
  rw [hfound, List.inj_on_of_nodup_map h hmem' hmem (hname'.trans hname.symm)]

/-- A row is found in a stage as it was found before. -/
theorem get?_withStage (t : Table α) (k : Nat) (x : String) :
    (t.withStage k).get? x = (t.get? x).map (Row.inStage k) := by
  have hrows : (t.withStage k).rows = t.rows.map (Row.inStage k) := rfl
  rw [get?, get?, hrows, ← List.map_reverse, List.find?_map]
  rfl

/-- Tables as those of stages, the first of which has the number `number`. -/
def staged (number : Nat) : List (Table α) → List (Table α)
  | [] => []
  | t :: ts => t.withStage number :: staged (number + 1) ts

/-- The row that counts for a variable: of all stages with a row for it, that of the latest. -/
def IsLatest (tables : List (Table α)) (x : String) (row : Row α) : Prop :=
  ∃ (k : Nat) (s : Table α) (r : Row α), tables[k]? = some s ∧ s.get? x = some r ∧
    row = r.inStage (k + 1) ∧
      ∀ (j : Nat) (s' : Table α), k < j → tables[j]? = some s' → s'.get? x = none

/-- A table that joins those of all stages, which are counted from one. -/
structure Joins (t : Table α) (tables : List (Table α)) : Prop where
  /-- The rows are those of the stages, and there are no others. -/
  rows : t.rows.Perm ((staged 1 tables).flatMap Table.rows)
  sorted : t.rows.Pairwise fun a b => a.le b
  getInStage? : ∀ (k : Nat) (x : String), t.getInStage? (k + 1) x =
    (tables[k]?.bind fun s : Table α => s.get? x).map (Row.inStage (k + 1))
  get?_eq_some_iff : ∀ (x : String) (row : Row α), t.get? x = some row ↔ IsLatest tables x row

section Rows

/-- A row of numbered tables is one of a table, with the number of this table. -/
theorem mem_rows_staged {number : Nat} :
    row ∈ (staged number tables).flatMap Table.rows ↔
      ∃ (k : Nat) (s : Table α) (r : Row α), tables[k]? = some s ∧ r ∈ s.rows ∧
        row = r.inStage (number + k) := by
  induction tables generalizing number with
  | nil => simp [staged]
  | cons s tables ih =>
    rw [staged, List.flatMap_cons, List.mem_append, ih]
    have hrows : (s.withStage number).rows = s.rows.map (Row.inStage number) := rfl
    rw [hrows, List.mem_map]
    constructor
    · rintro (⟨r, hr, rfl⟩ | ⟨k, s', r, hs', hr, rfl⟩)
      · exact ⟨0, s, r, rfl, hr, rfl⟩
      · exact ⟨k + 1, s', r, hs', hr, by rw [Nat.add_assoc, Nat.add_comm 1 k]⟩
    · rintro ⟨k, s', r, hs', hr, rfl⟩
      cases k with
      | zero =>
        obtain rfl := Option.some.inj hs'
        exact .inl ⟨r, hr, rfl⟩
      | succ k => exact .inr ⟨k, s', r, hs', hr, by rw [Nat.add_assoc, Nat.add_comm 1 k]⟩

variable (hrows : t.rows.Perm ((staged 1 tables).flatMap Table.rows))

include hrows

/-- A row of joined tables is one of a table, with the number of this table. -/
theorem mem_rows_iff : row ∈ t.rows ↔
    ∃ (k : Nat) (s : Table α) (r : Row α), tables[k]? = some s ∧ r ∈ s.rows ∧
      row = r.inStage (k + 1) := by
  rw [hrows.mem_iff, mem_rows_staged]
  simp only [Nat.add_comm 1]

/-- A row is determined by its stage and its name. -/
theorem eq_of_stage_eq (hdistinct : ∀ s ∈ tables, s.HasDistinctNames) {a b : Row α}
    (ha : a ∈ t.rows) (hb : b ∈ t.rows) (hstage : a.stage = b.stage) (hname : a.name = b.name) :
    a = b := by
  obtain ⟨i, s, r, hs, hr, rfl⟩ := (mem_rows_iff hrows).mp ha
  obtain ⟨j, s', r', hs', hr', rfl⟩ := (mem_rows_iff hrows).mp hb
  have hij : i = j := by simpa [Row.inStage] using hstage
  subst hij
  obtain rfl := Option.some.inj (hs.symm.trans hs')
  rw [List.inj_on_of_nodup_map (hdistinct s (List.mem_of_getElem? hs)) hr hr' hname]

/-- A row that is looked up in a stage is one of the table of this stage. -/
theorem getInStage?_of_rows (hdistinct : ∀ s ∈ tables, s.HasDistinctNames) (k : Nat) (x : String) :
    t.getInStage? (k + 1) x =
      (tables[k]?.bind fun s : Table α => s.get? x).map (Row.inStage (k + 1)) := by
  cases hlocal : tables[k]?.bind fun s : Table α => s.get? x with
  | none =>
    apply List.find?_eq_none.mpr
    intro row hrow hmatch
    obtain ⟨i, s, r, hs, hr, rfl⟩ := (mem_rows_iff hrows).mp hrow
    obtain ⟨hi, hname⟩ : i = k ∧ r.name = x := by simpa [Row.inStage] using hmatch
    subst hi
    rw [hs] at hlocal
    exact get?_eq_none_iff.mp hlocal r hr hname
  | some r =>
    obtain ⟨s, hs, hget⟩ := Option.bind_eq_some_iff.mp hlocal
    obtain ⟨hr, hname⟩ := mem_of_get?_eq_some hget
    have hmem : r.inStage (k + 1) ∈ t.rows := (mem_rows_iff hrows).mpr ⟨k, s, r, hs, hr, rfl⟩
    obtain ⟨found, hfound⟩ : ∃ found, t.getInStage? (k + 1) x = some found := by
      apply Option.isSome_iff_exists.mp
      apply List.find?_isSome.mpr
      exact ⟨r.inStage (k + 1), hmem, by simp [Row.inStage, hname]⟩
    obtain ⟨hstage, hname'⟩ : found.stage = some (k + 1) ∧ found.name = x := by
      simpa using List.find?_some hfound
    rw [hfound, eq_of_stage_eq hrows hdistinct (List.mem_of_find?_eq_some hfound) hmem hstage
      (hname'.trans hname.symm)]
    rfl

/-- The last row of a variable belongs to the latest stage that has one. -/
theorem stage_le_of_get? (hsorted : t.rows.Pairwise fun a b => a.le b) {k : Nat} {r : Row α}
    (h : t.get? x = some (r.inStage (k + 1))) {j : Nat} {s : Table α} {r' : Row α}
    (hs : tables[j]? = some s) (hr' : s.get? x = some r') : j ≤ k := by
  obtain ⟨-, before, after, hsplit, hnone⟩ := List.find?_eq_some_iff_append.mp h
  obtain ⟨hmem, hname⟩ := mem_of_get?_eq_some hr'
  have hrow : r'.inStage (j + 1) ∈ t.rows := (mem_rows_iff hrows).mpr ⟨j, s, r', hs, hmem, rfl⟩
  have hsorted' : t.rows.reverse.Pairwise fun a b => b.le a := List.pairwise_reverse.mpr hsorted
  rw [← List.mem_reverse, hsplit] at hrow
  rw [hsplit] at hsorted'
  rcases List.mem_append.mp hrow with hbefore | hafter
  · have hno := hnone _ hbefore
    simp [Row.inStage, hname] at hno
  · rcases List.mem_cons.mp hafter with heq | hlater
    · have hstage : j + 1 = k + 1 := Option.some.inj (congrArg Row.stage heq)
      omega
    · have hle := (List.pairwise_cons.mp (List.pairwise_append.mp hsorted').2.1).1 _ hlater
      have hstages := Row.stage_le_of_le (i := j + 1) (j := k + 1) rfl rfl hle
      omega

/-- A row that is looked up in joined tables is the one of the latest stage. -/
theorem get?_of_rows (hdistinct : ∀ s ∈ tables, s.HasDistinctNames)
    (hsorted : t.rows.Pairwise fun a b => a.le b) :
    t.get? x = some row ↔ IsLatest tables x row := by
  have hlatest (found : Row α) (h : t.get? x = some found) : IsLatest tables x found := by
    obtain ⟨hmem, hname⟩ := mem_of_get?_eq_some h
    obtain ⟨k, s, r, hs, hr, rfl⟩ := (mem_rows_iff hrows).mp hmem
    have hget : s.get? x = some r :=
      (hdistinct s (List.mem_of_getElem? hs)).get?_eq_some_iff.mpr ⟨hr, hname⟩
    refine ⟨k, s, r, hs, hget, rfl, ?_⟩
    intro j s' hj hs'
    by_contra hsome
    obtain ⟨r', hr'⟩ := Option.ne_none_iff_exists'.mp hsome
    have hle := stage_le_of_get? hrows hsorted h hs' hr'
    omega
  constructor
  · exact hlatest row
  · rintro ⟨k, s, r, hs, hr, rfl, hlater⟩
    obtain ⟨hmem, hname⟩ := mem_of_get?_eq_some hr
    have hrow : r.inStage (k + 1) ∈ t.rows := (mem_rows_iff hrows).mpr ⟨k, s, r, hs, hmem, rfl⟩
    obtain ⟨found, hfound⟩ := exists_get?_iff.mpr ⟨_, hrow, hname⟩
    obtain ⟨k', s', r', hs', hr', rfl, hlater'⟩ := hlatest found hfound
    -- Neither of the two stages lies behind the other.
    have hkk : k = k' := by
      rcases Nat.lt_trichotomy k k' with hlt | heq | hlt
      · rw [hlater k' s' hlt hs'] at hr'
        contradiction
      · exact heq
      · rw [hlater' k s hlt hs] at hr
        contradiction
    subst hkk
    obtain rfl := Option.some.inj (hs.symm.trans hs')
    obtain rfl := Option.some.inj (hr.symm.trans hr')
    exact hfound

end Rows

/-- The rows of all stages in their order are all that it takes. -/
theorem Joins.of_rows (hdistinct : ∀ s ∈ tables, s.HasDistinctNames)
    (hrows : t.rows.Perm ((staged 1 tables).flatMap Table.rows))
    (hsorted : t.rows.Pairwise fun a b => a.le b) : t.Joins tables where
  rows := hrows
  sorted := hsorted
  getInStage? := getInStage?_of_rows hrows hdistinct
  get?_eq_some_iff _ _ := get?_of_rows hrows hdistinct hsorted

/-- A row of a stage is one of the table of this stage. -/
theorem Joins.exists_get?_of_getInStage? (h : t.Joins tables) {k : Nat}
    (hrow : t.getInStage? (k + 1) x = some row) :
    ∃ (s : Table α) (r : Row α), tables[k]? = some s ∧ s.get? x = some r ∧
      row = r.inStage (k + 1) := by
  rw [h.getInStage?] at hrow
  obtain ⟨r, hr, rfl⟩ := Option.map_eq_some_iff.mp hrow
  obtain ⟨s, hs, hget⟩ := Option.bind_eq_some_iff.mp hr
  exact ⟨s, r, hs, hget, rfl⟩

/-- Tables are joined by putting their rows in order. -/
theorem joins_concat (hdistinct : ∀ s ∈ tables, s.HasDistinctNames) :
    (concat (staged 1 tables)).Joins tables :=
  .of_rows hdistinct (ofRows_perm _) (ofRows_sorted _)

/-- There is one way to join tables. -/
theorem Joins.eq (hdistinct : ∀ s ∈ tables, s.HasDistinctNames) (h : t.Joins tables)
    (h' : t'.Joins tables) : t = t' := by
  have hperm : t.rows.Perm t'.rows := h.rows.trans h'.rows.symm
  have hrows : t.rows = t'.rows := by
    refine List.Perm.eq_of_pairwise ?_ h.sorted h'.sorted hperm
    intro a b ha hb hab hba
    obtain ⟨hstage, hname⟩ := Row.name_eq_of_le_of_le hab hba
    exact eq_of_stage_eq h.rows hdistinct ha (hperm.mem_iff.mpr hb) hstage hname
  cases t
  cases t'
  exact congrArg Table.mk hrows

end Table

end ErrorBudget
