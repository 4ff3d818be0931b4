import ErrorBudget.Jacobian
import ErrorBudget.Proofs.Names
import ErrorBudget.Proofs.Outcome

/-!
# What a Jacobian consists of

Equations have a Jacobian exactly when each of them has a row: all its variables have columns, and
all its derivatives can be evaluated (`Equation.HasRow`). The cell of an equation and a variable is
then the slope of the equation (`Jacobian.ofEquations_eq_ok_iff`, `Jacobian.cells_ofSlopes`), which
is zero for a variable that does not occur. Where there is no Jacobian, the failure is that of one
equation (`Jacobian.exists_of_ofEquations_eq_error`).
-/

set_option autoImplicit false

namespace ErrorBudget

namespace Equation

variable {α : Type} {eq : Equation α} {x : String} {p : Point α}

/-- No variable is unresolved exactly if all variables have values. -/
theorem unresolved_eq_nil_iff : eq.unresolved p = [] ↔ ∀ x ∈ eq.vars, x ∈ p := by
  simp [unresolved]

/-- The variables are resolved exactly if all of them have values. -/
theorem requireResolved_eq_ok_iff : eq.requireResolved p = .ok () ↔ ∀ x ∈ eq.vars, x ∈ p := by
  rw [← unresolved_eq_nil_iff]
  unfold requireResolved
  cases eq.unresolved p <;> simp

variable [Scalar α]

/-- A variable that does not occur has the derivative zero. -/
theorem partialAt_of_not_mem (h : x ∉ eq.vars) : eq.partialAt x p = .ok 0 := by
  cases eq with
  | symbolic label residual partials =>
    have hnone : partials[x]? = none := by simpa [vars] using h
    simp only [partialAt, hnone]
  | native label residual partials =>
    have hnone : partials[x]? = none := by simpa [vars] using h
    simp only [partialAt, hnone]

/-- The derivative of an equation at a point, zero where it cannot be evaluated. -/
def slope (eq : Equation α) (p : Point α) (x : String) : α :=
  match eq.partialAt x p with
  | .ok d => d
  | .error _ => 0

/-- An equation has the slope zero in what is not a variable of it. -/
theorem slope_of_not_mem (h : x ∉ eq.vars) : eq.slope p x = 0 := by
  rw [slope, partialAt_of_not_mem h]

/-- A derivative that is defined is the slope. -/
theorem slope_of_eq_ok {d : α} (h : eq.partialAt x p = .ok d) : eq.slope p x = d := by
  rw [slope, h]

/-- The slopes of an equation with respect to its variables. -/
def slopes (eq : Equation α) (p : Point α) : Point α :=
  eq.vars.foldl (fun row x => row.insert x (eq.slope p x)) ∅

/-- Whether an equation has a row in a Jacobian with these columns. -/
structure HasRow (eq : Equation α) (columns : List String) (p : Point α) : Prop where
  columns : ∀ x ∈ eq.vars, x ∈ columns
  slopes : ∀ x ∈ eq.vars, ∃ d, eq.partialAt x p = .ok d

end Equation

section Rows

variable {ε α : Type}

/-- A row is made of the results of a step for each of its names. -/
theorem foldlM_insert_eq_ok_iff {step : String → Except ε α} {g : String → α}
    (hg : ∀ x d, step x = .ok d → g x = d) {names : List String} {start row : Point α} :
    names.foldlM (fun row x => (step x).map (row.insert x)) start = .ok row ↔
      (∀ x ∈ names, ∃ d, step x = .ok d) ∧
        row = names.foldl (fun row x => row.insert x (g x)) start := by
  induction names generalizing start with
  | nil => simp [pure, Except.pure, eq_comm]
  | cons x names ih =>
    rw [List.foldlM_cons, bind_eq_ok_iff, List.forall_mem_cons, List.foldl_cons]
    constructor
    · rintro ⟨next, hnext, hrest⟩
      obtain ⟨d, hd, rfl⟩ := map_eq_ok_iff.mp hnext
      obtain ⟨hsteps, hrow⟩ := ih.mp hrest
      exact ⟨⟨⟨d, hd⟩, hsteps⟩, by rw [hrow, hg x d hd]⟩
    · rintro ⟨⟨⟨d, hd⟩, hsteps⟩, hrow⟩
      rw [hg x d hd] at hrow
      exact ⟨start.insert x d, map_eq_ok_iff.mpr ⟨d, hd, rfl⟩, ih.mpr ⟨hsteps, hrow⟩⟩

/-- A row fails for the derivative of one of its variables. -/
theorem exists_eq_error_of_foldlM_insert {step : String → Except ε α} {names : List String}
    {start : Point α} {e : ε}
    (h : names.foldlM (fun row x => (step x).map (row.insert x)) start = .error e) :
    ∃ x ∈ names, step x = .error e := by
  induction names generalizing start with
  | nil => contradiction
  | cons x names ih =>
    rw [List.foldlM_cons] at h
    rcases bind_eq_error_iff.mp h with hfirst | ⟨next, -, hrest⟩
    · exact ⟨x, List.mem_cons_self, map_eq_error_iff.mp hfirst⟩
    · obtain ⟨y, hmem, hy⟩ := ih hrest
      exact ⟨y, List.mem_cons_of_mem x hmem, hy⟩

end Rows

namespace Jacobian

variable {α : Type} [Scalar α] {eq : Equation α} {equations : List (Equation α)}
  {columns : List String} {values : Point α} {p : Partition}

/-- A row is made exactly if every derivative is defined and every variable is a column. -/
theorem rowOf_eq_ok_iff {row : Point α} :
    rowOf columns values eq = .ok row ↔ eq.HasRow columns values ∧ row = eq.slopes values := by
  unfold rowOf
  split
  · rename_i hnone
    have hcolumns : ∀ x ∈ eq.vars, x ∈ columns := by simpa using hnone
    rw [foldlM_insert_eq_ok_iff (g := eq.slope values) fun x d h => Equation.slope_of_eq_ok h]
    constructor
    · intro h
      exact ⟨⟨hcolumns, h.1⟩, h.2⟩
    · intro h
      exact ⟨h.1.slopes, h.2⟩
  · rename_i names hsome
    simp only [reduceCtorEq, false_iff, not_and]
    intro h
    refine absurd ?_ hsome
    simpa using h.columns

/-- An equation has no row because of a variable without a column or of one of its derivatives. -/
theorem rowOf_eq_error {e : EvalError α} (h : rowOf columns values eq = .error e) :
    ((∃ x ∈ eq.vars, x ∉ columns) ∧
        e = ⟨eq.subject, .noInput (eq.vars.filter fun x => x ∉ columns)⟩) ∨
      (∀ x ∈ eq.vars, x ∈ columns) ∧ ∃ x ∈ eq.vars, eq.partialAt x values = .error e := by
  unfold rowOf at h
  split at h
  · rename_i hnone
    exact .inr ⟨by simpa using hnone, exists_eq_error_of_foldlM_insert h⟩
  · rename_i names hsome
    refine .inl ⟨?_, (Except.error.inj h).symm⟩
    by_contra hall
    push Not at hall
    exact hsome (by simpa using hall)

/-- The Jacobian of the slopes of some equations. -/
def ofSlopes (equations : List (Equation α)) (p : Partition) (values : Point α) : Jacobian α :=
  ofRows p (equations.map fun eq => eq.slopes values)

/-- Equations have a Jacobian exactly if each of them has a row. -/
theorem ofEquations_eq_ok_iff {J : Jacobian α} :
    ofEquations equations p values = .ok J ↔
      (∀ eq ∈ equations, eq.HasRow p.columns values) ∧ J = ofSlopes equations p values := by
  have hrows {rows : List (Point α)} : equations.mapM (rowOf p.columns values) = .ok rows ↔
      (∀ eq ∈ equations, eq.HasRow p.columns values) ∧
        equations.map (fun eq => eq.slopes values) = rows := by
    rw [mapM_eq_ok_iff]
    simp only [rowOf_eq_ok_iff]
    rw [List.forall₂_and_left, ← List.forall₂_eq_eq_eq, List.forall₂_map_left_iff]
    exact and_congr_right fun _ => by simp only [eq_comm]
  unfold ofEquations
  rw [map_eq_ok_iff]
  constructor
  · rintro ⟨rows, hok, rfl⟩
    obtain ⟨hall, rfl⟩ := hrows.mp hok
    exact ⟨hall, rfl⟩
  · rintro ⟨hall, rfl⟩
    exact ⟨_, hrows.mpr ⟨hall, rfl⟩, rfl⟩

/-- A Jacobian fails for the row of one of its equations. -/
theorem exists_of_ofEquations_eq_error {e : EvalError α}
    (h : ofEquations equations p values = .error e) :
    ∃ eq ∈ equations, rowOf p.columns values eq = .error e :=
  exists_eq_error_of_mapM (map_eq_error_iff.mp h)

/-- The number of rows is the number of equations. -/
theorem equations_ofSlopes (equations : List (Equation α)) (p : Partition) (values : Point α) :
    (ofSlopes equations p values).equations = equations.length :=
  List.length_map ..

/-- The cell of an equation and a variable is a slope. -/
theorem cells_ofSlopes (i : Fin (ofSlopes equations p values).equations)
    (j : Fin (p.unknown.length + p.known.length)) :
    (ofSlopes equations p values).cells i j =
      (equations.get (i.cast (equations_ofSlopes equations p values))).slope values
        (p.columns.get (j.cast (by simp [Partition.columns]))) := by
  have hslopes (eq : Equation α) (x : String) :
      (eq.slopes values).getD x 0 = eq.slope values x := by
    rw [Equation.slopes, NameMap.getD_foldl_insert]
    by_cases hx : x ∈ eq.vars
    · simp [hx]
    · simp [hx, Equation.slope_of_not_mem]
  have hrow (k : Fin (equations.map fun eq : Equation α => eq.slopes values).length)
      (x : String) :
      ((equations.map fun eq : Equation α => eq.slopes values).get k).getD x 0 =
        (equations.get (k.cast (List.length_map _))).slope values x := by
    rw [List.get_eq_getElem, List.getElem_map, hslopes]
    rfl
  exact (Mat.ofFn_apply ..).trans (hrow i _)

end Jacobian

end ErrorBudget
