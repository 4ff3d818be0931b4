import ErrorBudget.Propagation
import ErrorBudget.Proofs.Outcome
import Mathlib.Data.List.OfFn

/-!
# What propagation reports

Propagation succeeds exactly when the unknown columns of a square Jacobian have an inverse and every
column has a value. Its table then holds one row for each column (`propagate_eq_ok_iff`), and the
calculated rows are those of the unknown variables (`calculated_ofRows`).
-/

set_option autoImplicit false

namespace ErrorBudget

namespace Jacobian

variable {α : Type} [Scalar α]

/-- The rows of some variables that have values, with an error for each of them. -/
def rowsAt (values : Point α) (isCalculated : Bool) (names : List String)
    (errors : Vector α names.length) : List (Row α) :=
  List.ofFn fun i : Fin names.length =>
    Row.single (names.get i) (values.getD (names.get i) 0) (errors.get i) isCalculated

/-- The row of one variable. -/
theorem single_eq_ok_iff {values : Point α} {x : String} {error : α} {isCalculated : Bool}
    {row : Row α} : (match values[x]? with
      | some value => .ok (Row.single x value error isCalculated)
      | none => .error (.evaluation ⟨.label x, .noValue⟩) : Except (Error α) (Row α)) = .ok row ↔
      x ∈ values ∧ Row.single x (values.getD x 0) error isCalculated = row := by
  rw [Std.ExtTreeMap.getD_eq_getD_getElem?, ← Std.ExtTreeMap.isSome_getElem?_iff_mem]
  cases values[x]? <;> simp

/-- Rows are made exactly for variables that have values. -/
theorem rowsOf_eq_ok_iff {values : Point α} {isCalculated : Bool} {names : List String}
    {errors : Vector α names.length} {rows : List (Row α)} :
    rowsOf values isCalculated (names.zip errors.toList) = .ok rows ↔
      (∀ x ∈ names, x ∈ values) ∧ rows = rowsAt values isCalculated names errors := by
  have hnames : (names.zip errors.toList).map Prod.fst = names := by
    rw [List.map_fst_zip]
    simp
  have hrows : (names.zip errors.toList).map (fun e =>
      Row.single e.1 (values.getD e.1 0) e.2 isCalculated) =
      rowsAt values isCalculated names errors := by
    apply List.ext_getElem
    · simp [rowsAt]
    · intro i hi hi'
      simp only [List.getElem_map, List.getElem_zip, rowsAt, List.getElem_ofFn]
      rfl
  have hvalues : (∀ e ∈ names.zip errors.toList, e.1 ∈ values) ↔ ∀ x ∈ names, x ∈ values := by
    conv_rhs => rw [← hnames]
    exact List.forall_mem_map.symm
  calc rowsOf values isCalculated (names.zip errors.toList) = .ok rows
    _ ↔ List.Forall₂ (fun e row => e.1 ∈ values ∧
          Row.single e.1 (values.getD e.1 0) e.2 isCalculated = row)
          (names.zip errors.toList) rows := by
        rw [rowsOf, mapM_eq_ok_iff]
        exact ⟨.imp fun _ _ => single_eq_ok_iff.mp, .imp fun _ _ => single_eq_ok_iff.mpr⟩
    _ ↔ (∀ e ∈ names.zip errors.toList, e.1 ∈ values) ∧
          (names.zip errors.toList).map (fun e =>
            Row.single e.1 (values.getD e.1 0) e.2 isCalculated) = rows := by
        rw [List.forall₂_and_left, ← List.forall₂_map_left_iff, List.forall₂_eq_eq_eq]
    _ ↔ (∀ x ∈ names, x ∈ values) ∧ rows = rowsAt values isCalculated names errors := by
        rw [hrows, hvalues, eq_comm (a := rowsAt values isCalculated names errors)]

section Inversion

variable {J : Jacobian α} {square : J.IsSquare} {invert : Mat.Inversion α} {how : Combination}
  {values errors : Point α} {constants : Option (Point α)}

/-- A Jacobian that is not square is singular, however matrices are inverted. -/
theorem propagateBy_of_not_isSquare (square : ¬J.IsSquare) :
    J.propagateBy invert how values errors constants = .error (.singular J.unknown) := by
  rw [propagateBy, dif_neg square]

/-- Without an inverse the unknown variables are not determined. -/
theorem propagateBy_of_inverseBy?_eq_none (hB : J.inverseBy? invert square = none) :
    J.propagateBy invert how values errors constants = .error (.singular J.unknown) := by
  rw [propagateBy, dif_pos square, hB]

/-- With an inverse, what can fail is that a column has no value. -/
theorem propagateBy_of_inverseBy?_eq_some {B : Mat α J.unknown.length J.unknown.length}
    (hB : J.inverseBy? invert square = some B) :
    J.propagateBy invert how values errors constants = do
      let calculated ← rowsOf values true (J.unknown.zip
        ((J.unknownWeights square B how errors constants).map how.unweigh).toList)
      let given ← rowsOf values false (J.known.zip
        ((J.knownWeights how errors constants).map how.unweigh).toList)
      return Table.ofRows (calculated ++ given) := by
  rw [propagateBy, dif_pos square, hB]

/-- Propagation succeeds exactly when the unknown columns have an inverse and every column has a
value; the table has a row for each column. -/
theorem propagateBy_eq_ok_iff {t : Table α} :
    J.propagateBy invert how values errors constants = .ok t ↔
      ∃ (square : J.IsSquare) (inverse : Mat α J.unknown.length J.unknown.length),
        J.inverseBy? invert square = some inverse ∧ (∀ x ∈ J.columns, x ∈ values) ∧
        t = Table.ofRows
          (rowsAt values true J.unknown
              ((J.unknownWeights square inverse how errors constants).map how.unweigh) ++
            rowsAt values false J.known
              ((J.knownWeights how errors constants).map how.unweigh)) := by
  unfold propagateBy
  split
  · rename_i square
    split
    · rename_i hnone
      simp [hnone, square]
    · rename_i inverse hsome
      simp only [bind_eq_ok_iff, rowsOf_eq_ok_iff, columns, List.forall_mem_append]
      constructor
      · rintro ⟨_, ⟨hu, rfl⟩, _, ⟨hk, rfl⟩, ht⟩
        exact ⟨square, inverse, hsome, ⟨hu, hk⟩, (Except.ok.inj ht).symm⟩
      · rintro ⟨_, inverse', hsome', ⟨hu, hk⟩, rfl⟩
        obtain rfl : inverse = inverse' := Option.some.inj (hsome.symm.trans hsome')
        exact ⟨_, ⟨hu, rfl⟩, _, ⟨hk, rfl⟩, rfl⟩
  · rename_i square
    simp [square]

/-- Propagation fails where the unknown columns have no inverse or a column has no value. -/
theorem eq_of_propagateBy_eq_error {e : Error α}
    (h : J.propagateBy invert how values errors constants = .error e) :
    e = .singular J.unknown ∨ ∃ e', e = .evaluation e' := by
  have hrows {isCalculated : Bool} {entries : List (String × α)}
      (hfail : rowsOf values isCalculated entries = .error e) : ∃ e', e = .evaluation e' := by
    obtain ⟨⟨x, error⟩, -, hrow⟩ := exists_eq_error_of_mapM hfail
    dsimp only at hrow
    split at hrow
    · contradiction
    · exact ⟨_, (Except.error.inj hrow).symm⟩
  unfold propagateBy at h
  split at h
  · split at h
    · exact .inl (Except.error.inj h).symm
    · rcases bind_eq_error_iff.mp h with hunknown | ⟨_, -, h⟩
      · exact .inr (hrows hunknown)
      · rcases bind_eq_error_iff.mp h with hknown | ⟨_, -, h⟩
        · exact .inr (hrows hknown)
        · contradiction
  · exact .inl (Except.error.inj h).symm

/-- A Jacobian that is not square is singular. -/
theorem propagate_of_not_isSquare (square : ¬J.IsSquare) :
    J.propagate how values errors constants = .error (.singular J.unknown) :=
  propagateBy_of_not_isSquare square

/-- Without an inverse for them, the unknown variables are not determined. -/
theorem propagate_of_inverse?_eq_none (hB : J.inverse? square = none) :
    J.propagate how values errors constants = .error (.singular J.unknown) :=
  propagateBy_of_inverseBy?_eq_none hB

/-- With an inverse for the unknown variables, what can fail is that a column has no value. -/
theorem propagate_of_inverse?_eq_some {B : Mat α J.unknown.length J.unknown.length}
    (hB : J.inverse? square = some B) :
    J.propagate how values errors constants = do
      let calculated ← rowsOf values true (J.unknown.zip
        ((J.unknownWeights square B how errors constants).map how.unweigh).toList)
      let given ← rowsOf values false (J.known.zip
        ((J.knownWeights how errors constants).map how.unweigh).toList)
      return Table.ofRows (calculated ++ given) :=
  propagateBy_of_inverseBy?_eq_some hB

/-- Propagation succeeds exactly when the unknown columns have an inverse and every column has a
value; the table has a row for each column. -/
theorem propagate_eq_ok_iff {t : Table α} :
    J.propagate how values errors constants = .ok t ↔
      ∃ (square : J.IsSquare) (inverse : Mat α J.unknown.length J.unknown.length),
        J.inverse? square = some inverse ∧ (∀ x ∈ J.columns, x ∈ values) ∧
        t = Table.ofRows
          (rowsAt values true J.unknown
              ((J.unknownWeights square inverse how errors constants).map how.unweigh) ++
            rowsAt values false J.known
              ((J.knownWeights how errors constants).map how.unweigh)) :=
  propagateBy_eq_ok_iff

/-- Propagation fails where the unknown columns have no inverse or a column has no value. -/
theorem eq_of_propagate_eq_error {e : Error α}
    (h : J.propagate how values errors constants = .error e) :
    e = .singular J.unknown ∨ ∃ e', e = .evaluation e' :=
  eq_of_propagateBy_eq_error h

end Inversion

/-- The calculated rows of a table are those of the unknown variables. -/
theorem calculated_ofRows {values : Point α} {unknown known : List String}
    (u : Vector α unknown.length) (k : Vector α known.length) :
    (Table.ofRows (rowsAt values true unknown u ++ rowsAt values false known k)).calculated.Perm
      (rowsAt values true unknown u) := by
  refine ((Table.ofRows_perm _).filter _).trans ?_
  rw [List.filter_append, List.filter_eq_self.mpr, List.filter_eq_nil_iff.mpr, List.append_nil]
  · simp [rowsAt, Row.single]
  · simp [rowsAt, Row.single]

/-- Each unknown variable has its calculated row, with the error that its weight stands for. -/
theorem exists_calculated_of_propagate {J : Jacobian α} {how : Combination}
    {values errors : Point α} {constants : Option (Point α)} {t : Table α}
    (h : J.propagate how values errors constants = .ok t) :
    ∃ (square : J.IsSquare) (inverse : Mat α J.unknown.length J.unknown.length),
      J.inverse? square = some inverse ∧ ∀ row, row ∈ t.rows ∧ row.isCalculated ↔
        ∃ i, Row.single (J.unknown.get i) (values.getD (J.unknown.get i) 0)
          (how.unweigh ((J.unknownWeights square inverse how errors constants).get i)) true =
            row := by
  obtain ⟨square, inverse, hinverse, -, rfl⟩ := propagate_eq_ok_iff.mp h
  refine ⟨square, inverse, hinverse, ?_⟩
  intro row
  rw [← List.mem_filter, ← Table.calculated, (calculated_ofRows _ _).mem_iff, rowsAt, List.mem_ofFn]
  apply exists_congr
  intro i
  have hmap : ((J.unknownWeights square inverse how errors constants).map how.unweigh).get i =
      how.unweigh ((J.unknownWeights square inverse how errors constants).get i) :=
    Vector.getElem_map how.unweigh i.isLt
  rw [hmap]

end Jacobian

end ErrorBudget
