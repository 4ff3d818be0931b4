import Mathlib.Data.List.Forall2

/-!
# Steps that can fail

A sequence of steps succeeds exactly when each of its steps does, on the results of those before it,
and it fails with the failure of its first step that fails.
-/

set_option autoImplicit false

namespace ErrorBudget

variable {ε α β : Type}

/-- A step that succeeds has a result. -/
theorem exists_eq_ok_of_isOk {step : Except ε α} (h : step.isOk = true) : ∃ a, step = .ok a := by
  cases step with
  | error e => contradiction
  | ok a => exact ⟨a, rfl⟩

/-- A step that does not succeed has a failure. -/
theorem exists_eq_error_of_isOk {step : Except ε α} (h : step.isOk = false) :
    ∃ e, step = .error e := by
  cases step with
  | error e => exact ⟨e, rfl⟩
  | ok a => contradiction

/-- What is left of a step without its failure is its result. -/
theorem toOption_eq_some_iff {step : Except ε α} {a : α} :
    step.toOption = some a ↔ step = .ok a := by
  cases step <;> simp [Except.toOption]

/-- What can be tested of the result of a step, if it has one. -/
theorem all_toOption_iff {step : Except ε α} {p : α → Bool} :
    step.toOption.all p = true ↔ ∀ a, step = .ok a → p a = true := by
  cases step <;> simp [Except.toOption]

/-- Two steps in sequence. -/
@[simp] theorem bind_eq_ok_iff {step : Except ε α} {next : α → Except ε β} {b : β} :
    step >>= next = .ok b ↔ ∃ a, step = .ok a ∧ next a = .ok b := by
  cases step with
  | error e => simp [bind, Except.bind]
  | ok a => simp [bind, Except.bind]

/-- Two steps fail if the first one fails, or the second one after it. -/
theorem bind_eq_error_iff {step : Except ε α} {next : α → Except ε β} {e : ε} :
    step >>= next = .error e ↔ step = .error e ∨ ∃ a, step = .ok a ∧ next a = .error e := by
  cases step with
  | error e' => simp [bind, Except.bind]
  | ok a => simp [bind, Except.bind]

/-- Only what follows a result of the first step matters. -/
theorem bind_congr_of_ok {step : Except ε α} {next next' : α → Except ε β}
    (h : ∀ a, step = .ok a → next a = next' a) : step >>= next = step >>= next' := by
  cases step with
  | error e => rfl
  | ok a => exact h a rfl

/-- A step whose result is changed. -/
theorem map_eq_ok_iff {step : Except ε α} {f : α → β} {b : β} :
    step.map f = .ok b ↔ ∃ a, step = .ok a ∧ f a = b := by
  cases step <;> simp [Except.map]

/-- A function of the result does not change a failure. -/
theorem map_eq_error_iff {step : Except ε α} {f : α → β} {e : ε} :
    step.map f = .error e ↔ step = .error e := by
  cases step <;> simp [Except.map]

/-- A function of the result is a second step that succeeds. -/
theorem map_eq_bind {step : Except ε α} {f : α → β} :
    step.map f = step >>= fun a => .ok (f a) := by
  cases step <;> rfl

/-- A result that is changed twice. -/
theorem map_map_eq {γ : Type} {step : Except ε α} {f : α → β} {g : β → γ} :
    (step.map f).map g = step.map fun a => g (f a) := by
  cases step <;> rfl

/-- What follows a step may be changed before or after it has been put behind the step. -/
theorem map_bind {γ : Type} {step : Except ε α} {next : α → Except ε β} {f : β → γ} :
    (step >>= next).map f = step >>= fun a => (next a).map f := by
  cases step <;> rfl

/-- A step whose failures are changed. -/
theorem mapError_eq_ok_iff {ε' : Type} {step : Except ε α} {f : ε → ε'} {a : α} :
    step.mapError f = .ok a ↔ step = .ok a := by
  cases step <;> simp [Except.mapError]

/-- A failure that is put into other words comes from a failure. -/
theorem mapError_eq_error_iff {ε' : Type} {step : Except ε α} {f : ε → ε'} {e : ε'} :
    step.mapError f = .error e ↔ ∃ e', step = .error e' ∧ f e' = e := by
  cases step <;> simp [Except.mapError]

/-- The result and the failures of a step are changed independently. -/
theorem mapError_map {ε' : Type} {step : Except ε α} {f : α → β} {g : ε → ε'} :
    (step.map f).mapError g = (step.mapError g).map f := by
  cases step <;> rfl

/-- The failures of two steps in sequence are changed as those of each of them. -/
theorem mapError_bind {ε' : Type} {step : Except ε α} {next : α → Except ε β} {f : ε → ε'} :
    (step >>= next).mapError f = step.mapError f >>= fun a => (next a).mapError f := by
  cases step <;> rfl

/-- One step for each element of a list. -/
theorem mapM_eq_ok_iff {step : α → Except ε β} {as : List α} {bs : List β} :
    as.mapM step = .ok bs ↔ List.Forall₂ (fun a b => step a = .ok b) as bs := by
  induction as generalizing bs with
  | nil => simp [pure, Except.pure, eq_comm]
  | cons a as ih =>
    rw [List.mapM_cons, bind_eq_ok_iff, List.forall₂_cons_left_iff]
    refine exists_congr fun b => ?_
    simp only [bind_eq_ok_iff, ih, pure, Except.pure, Except.ok.injEq]
    constructor
    · rintro ⟨hb, rest, hrest, rfl⟩
      exact ⟨rest, hb, hrest, rfl⟩
    · rintro ⟨rest, hb, hrest, rfl⟩
      exact ⟨hb, rest, hrest, rfl⟩

/-- Some steps fail for one of them. -/
theorem exists_eq_error_of_mapM {step : α → Except ε β} {as : List α} {e : ε}
    (h : as.mapM step = .error e) : ∃ a ∈ as, step a = .error e := by
  induction as with
  | nil => contradiction
  | cons a as ih =>
    rw [List.mapM_cons] at h
    rcases bind_eq_error_iff.mp h with hfirst | ⟨b, -, hlater⟩
    · exact ⟨a, List.mem_cons_self, hfirst⟩
    · rcases bind_eq_error_iff.mp hlater with hrest | ⟨bs, -, hpure⟩
      · obtain ⟨a', hmem, ha'⟩ := ih hrest
        exact ⟨a', List.mem_cons_of_mem a hmem, ha'⟩
      · contradiction

/-- Steps that do the same for each element of a list. -/
theorem mapM_congr {step step' : α → Except ε β} {as : List α}
    (h : ∀ a ∈ as, step a = step' a) : as.mapM step = as.mapM step' := by
  induction as with
  | nil => rfl
  | cons a as ih =>
    obtain ⟨ha, hrest⟩ := List.forall_mem_cons.mp h
    rw [List.mapM_cons, List.mapM_cons, ha, ih hrest]

/-- Steps that only rename their results, taken over the same list. -/
theorem mapM_map_eq {α' β' : Type} {step : α → Except ε β} {step' : α' → Except ε β'}
    {f : α → α'} {g : β → β'} (h : ∀ a, step' (f a) = (step a).map g) {as : List α} :
    (as.map f).mapM step' = (as.mapM step).map (List.map g) := by
  induction as with
  | nil => rfl
  | cons a as ih =>
    rw [List.map_cons, List.mapM_cons, List.mapM_cons, ih, h]
    cases step a with
    | error e => rfl
    | ok b => cases as.mapM step <;> rfl

end ErrorBudget
