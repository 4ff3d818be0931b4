import ErrorBudget.EquationSet.Edit
import ErrorBudget.Proofs.Outcome

/-!
# Operations in place

Each operation in place reports what the operation that builds a new set reports, and leaves the set
that this one builds, or the set itself if it fails (`EquationSet.exec_eq`). For an operation with a
single write this holds because it writes last. Loading a definition writes many times, and the
loops behind it do leave what they have written when they fail (`Update.equations`,
`Update.combos`): there it holds because they work on a copy.
-/

set_option autoImplicit false

namespace ErrorBudget

namespace EquationSet

variable {α β γ : Type}

/-- What an operation reports and leaves if it changes the set only when it succeeds. -/
def outcome (s : EquationSet α) :
    Except (Error α) (β × EquationSet α) → Except (Error α) β × EquationSet α
  | .ok (b, s') => (.ok b, s')
  | .error e => (.error e, s)

/-- What settles an outcome is the result that it came from. -/
@[simp] theorem settled_outcome (s : EquationSet α) (r : Except (Error α) (β × EquationSet α)) :
    settled (s.outcome r) = r := by
  cases r <;> rfl

namespace Update

/-- A result that is put into another form does not change what is left. -/
theorem report_eq_outcome {u : Update α β} {f : β → γ} {s : EquationSet α}
    {r : Except (Error α) (β × EquationSet α)} (h : u s = s.outcome r) :
    u.report f s = s.outcome (r.map fun (b, s') => (f b, s')) := by
  rw [report, h]
  cases r <;> rfl

/-- A native equation is stored, or the set is left as it was. -/
theorem native_eq (n : Native α) (s : EquationSet α) : native n s = s.outcome (s.addNative n) := by
  unfold native addNative
  cases Equation.ofNative n <;> rfl

/-- A combination is named, or the set is left as it was. -/
theorem combo_eq (name : String) (is : List Nat) (s : EquationSet α) :
    combo name is s = s.outcome ((s.addCombo name is).map fun s' => ((), s')) := by
  unfold combo addCombo
  cases is.find? fun i => s.size ≤ i <;> rfl

/-- Combinations that are named in turn are all named, or the first failure is reported. -/
theorem settled_combos (offset : Nat) (added : List (String × List Nat)) (s : EquationSet α) :
    settled (combos offset added s) = (s.addCombos offset added).map fun s' => ((), s') := by
  induction added generalizing s with
  | nil => rfl
  | cons entry added ih =>
    obtain ⟨name, is⟩ := entry
    unfold combos addCombos
    rw [combo_eq]
    cases s.addCombo name (is.map (addIndex offset)) with
    | error e => rfl
    | ok t => exact ih t

variable [Scalar α]

/-- An equation is read and stored, or the set is left as it was. -/
theorem equation_eq (text : String) (s : EquationSet α) :
    equation text s = s.outcome (s.addEquation text) := by
  unfold equation addEquation
  cases (Expr.parseEquation s.limits text : Except (Error α) (Expr α)) <;> rfl

/-- Texts that are added in turn are all added, or the first failure is reported. -/
theorem settled_equations (texts : List String) (s : EquationSet α) :
    settled (equations texts s) = (s.addEquations texts).map fun s' => ((), s') := by
  induction texts generalizing s with
  | nil => rfl
  | cons text texts ih =>
    unfold equations addEquations
    rw [equation_eq]
    cases s.addEquation text with
    | error e => rfl
    | ok added => exact ih added.2

/-- What is reported of a definition, with the copy that is left if nothing has failed. -/
theorem settled_definition (d : Definition α) (s : EquationSet α) :
    settled (definition d s) =
      (addEquations { s with names := s.names ∪ d.names } d.equations >>= fun extended =>
        extended.addCombos s.size d.combos.toList).map fun s' => ((), s') := by
  unfold definition
  have hequations := settled_equations d.equations { s with names := s.names ∪ d.names }
  generalize equations d.equations { s with names := s.names ∪ d.names } = reported at hequations ⊢
  obtain ⟨e | u, staged⟩ := reported
  · rw [map_eq_error_iff.mp hequations.symm]
    rfl
  · obtain ⟨extended, hextended, heq⟩ := map_eq_ok_iff.mp hequations.symm
    obtain ⟨-, rfl⟩ := Prod.mk.inj heq
    rw [hextended]
    exact settled_combos s.size d.combos.toList extended

/-- A definition is loaded as a whole or not at all: what its loops have written before a failure
stands in the copy. -/
theorem load_eq (text : String) (s : EquationSet α) :
    load text s = s.outcome ((s.load text).map fun s' => ((), s')) := by
  unfold load EquationSet.load
  cases (Definition.parse text : Except (Error α) (Definition α)) with
  | error e => rfl
  | ok d =>
    refine .trans ?_ (congrArg s.outcome (settled_definition d s))
    dsimp only
    obtain ⟨_ | _, staged⟩ := definition d s <;> rfl

/-- A replacement is read and kept, or the set is left as it was. -/
theorem name_eq (old replacement : String) (s : EquationSet α) :
    name old replacement s = s.outcome ((s.withName old replacement).map fun s' => ((), s')) := by
  unfold name withName
  cases (Expr.parse replacement : Except _ (Expr α)) <;> rfl

end Update

variable [Scalar α]

/-- An edit leaves the set of its success, or the set itself. -/
theorem exec_eq (s : EquationSet α) (edit : Edit α) : s.exec edit = s.outcome (s.apply edit) := by
  have houtcome : ∃ r, s.exec edit = s.outcome r := by
    cases edit with
    | equation text => exact ⟨_, Update.report_eq_outcome (Update.equation_eq text s)⟩
    | native n => exact ⟨_, Update.report_eq_outcome (Update.native_eq n s)⟩
    | combo name is => exact ⟨_, Update.report_eq_outcome (Update.combo_eq name is s)⟩
    | load text => exact ⟨_, Update.report_eq_outcome (Update.load_eq text s)⟩
    | name old replacement =>
      exact ⟨_, Update.report_eq_outcome (Update.name_eq old replacement s)⟩
    | limits limits => exact ⟨.ok (.done, s.withLimits limits), rfl⟩
  obtain ⟨r, hr⟩ := houtcome
  rw [apply, hr, settled_outcome]

section Apply

variable (s : EquationSet α)

/-- An edit that is an operation in place succeeds or fails with what that operation builds. -/
theorem apply_eq_map {edit : Edit α} {u : Update α β} {f : β → EditResult}
    {made : Except (Error α) (β × EquationSet α)} (hexec : s.exec edit = u.report f s)
    (hu : u s = s.outcome made) : s.apply edit = made.map fun (b, s') => (f b, s') := by
  rw [apply, hexec, Update.report_eq_outcome hu, settled_outcome]

/-- To apply the edit of an equation is to add the equation. -/
theorem apply_equation (text : String) :
    s.apply (.equation text) = (s.addEquation text).map fun (i, s') => (.stored i, s') :=
  s.apply_eq_map rfl (Update.equation_eq text s)

/-- To apply the edit of a native equation is to add it. -/
theorem apply_native (n : Native α) :
    s.apply (.native n) = (s.addNative n).map fun (i, s') => (.stored i, s') :=
  s.apply_eq_map rfl (Update.native_eq n s)

/-- To apply the edit of a combination is to name it. -/
theorem apply_combo (name : String) (is : List Nat) :
    s.apply (.combo name is) = (s.addCombo name is).map fun s' => (.done, s') := by
  rw [s.apply_eq_map rfl (Update.combo_eq name is s), map_map_eq]

/-- To apply the edit of a definition is to load it. -/
theorem apply_load (text : String) :
    s.apply (.load text) = (s.load text).map fun s' => (.done, s') := by
  rw [s.apply_eq_map rfl (Update.load_eq text s), map_map_eq]

/-- To apply the edit of a replacement is to keep it. -/
theorem apply_name (old replacement : String) :
    s.apply (.name old replacement) = (s.withName old replacement).map fun s' => (.done, s') := by
  rw [s.apply_eq_map rfl (Update.name_eq old replacement s), map_map_eq]

end Apply

end EquationSet

end ErrorBudget
