import ErrorBudget.Pipeline
import ErrorBudget.Proofs.Solver.Completeness
import ErrorBudget.Proofs.Table.Stages

/-!
# A pipeline is the chain of its stages

A pipeline does nothing but solve its stages one after another, each on its own
(`Pipeline.solve_chain`). `StageRun.Chain` says what the tables of the stages are: a stage is solved
with its errors, where the target of each link has been given the error of the link's source in the
table of the stage before. The pipeline succeeds exactly when there is such a chain, and its table
joins the tables of the chain. Otherwise a first stage fails, in one of the ways that
`StageRun.FailsAt` lists, and the pipeline fails with this failure.
-/

set_option autoImplicit false

namespace ErrorBudget

section Specification

variable {α : Type}

/-- Whether a link leads from the table of the stage before to a variable of its stage. -/
def Link.Holds (link : Link) (previous : Table α) (vars : NameSet) : Prop :=
  (∃ row ∈ previous.rows, row.name = link.source) ∧ link.target ∈ vars

/-- How a link into the stage `number` breaks. -/
inductive Link.Breaks (number : Nat) (previous : Table α) (vars : NameSet) (link : Link) :
    LinkFault → Prop
  | source (h : ∀ row ∈ previous.rows, row.name ≠ link.source) :
      Breaks number previous vars link (.unknownSource (number - 1))
  | target (h : ∃ row ∈ previous.rows, row.name = link.source) (h' : link.target ∉ vars) :
      Breaks number previous vars link .unknownTarget

/-- The errors of a stage after a link has been followed. -/
def Link.overwrite (previous : Table α) (errors : Point α) (link : Link) : Point α :=
  match previous.get? link.source with
  | some row => errors.insert link.target row.error
  | none => errors

variable [Scalar α]

/-- Whether all links of a stage lead from the table of the stage before. -/
def Stage.CanFollow (s : Stage α) : Option (Table α) → Prop
  | none => s.links = []
  | some previous =>
    ∀ link ∈ s.links, ∃ vars, s.solver.vars s.combo = .ok vars ∧ link.Holds previous vars

/-- The errors of a stage after all its links have been followed, in their order. -/
def Stage.overwritten (s : Stage α) (previous : Option (Table α)) (errors : Point α) : Point α :=
  match previous with
  | none => errors
  | some table => s.links.foldl (Link.overwrite table) errors

/-- How the links into the stage `number` fail behind the table `previous`. -/
inductive Stage.LinksBreak (number : Nat) (s : Stage α) : Option (Table α) → Error α → Prop
  /-- The first stage has links. -/
  | first {link links} (h : s.links = link :: links) :
      LinksBreak number s none (.invalidLink number link.source link.target .noPrevious)
  /-- There are links, but the combination of the stage does not exist. -/
  | combo {previous name} (hlinks : s.links ≠ []) (hcombo : s.combo = some name)
      (h : name ∉ s.solver.equations.combos) :
      LinksBreak number s (some previous) (.stage number (.unknownCombo name))
  /-- A link breaks, and those before it hold. -/
  | link {previous vars before link after fault} (hvars : s.solver.vars s.combo = .ok vars)
      (hlinks : s.links = before ++ link :: after) (hbefore : ∀ l ∈ before, l.Holds previous vars)
      (h : link.Breaks number previous vars fault) :
      LinksBreak number s (some previous) (.invalidLink number link.source link.target fault)

namespace StageRun

/-- How the solver of a stage is run on its own. -/
def options (r : StageRun α) (shared : RunOptions) : SolveOptions α where
  constants := r.constants
  combo := r.stage.combo
  check := shared.check
  combination := shared.combination

/-- The table of a stage behind the table `previous`. -/
structure Yields (shared : RunOptions) (previous : Option (Table α)) (r : StageRun α)
    (t : Table α) : Prop where
  links : r.stage.CanFollow previous
  solved : r.stage.solver.solve r.values (r.stage.overwritten previous r.errors)
    (r.options shared) = .ok t

/-- The tables of consecutive stages, each solved on its own. -/
inductive Chain (shared : RunOptions) :
    Option (Table α) → List (StageRun α) → List (Table α) → Prop
  | nil {previous} : Chain shared previous [] []
  | cons {previous r t rs ts} (h : r.Yields shared previous t) (hs : Chain shared (some t) rs ts) :
      Chain shared previous (r :: rs) (t :: ts)

/-- How the stage `number` fails behind the table `previous`. -/
inductive FailsAt (shared : RunOptions) (number : Nat) (previous : Option (Table α))
    (r : StageRun α) : Error α → Prop
  | links {e} (h : r.stage.LinksBreak number previous e) : FailsAt shared number previous r e
  | solver {e} (hlinks : r.stage.CanFollow previous)
      (h : r.stage.solver.solve r.values (r.stage.overwritten previous r.errors)
        (r.options shared) = .error e) : FailsAt shared number previous r (.stage number e)

end StageRun

/-- Whether the inputs of a pipeline have the right shape: each is given once per stage. -/
structure Pipeline.Fits (p : Pipeline α) (values errors : List (Point α))
    (constants : Option (List (Point α))) : Prop where
  values : values.length = p.size
  errors : errors.length = p.size
  constants : ∀ maps, constants = some maps → maps.length = p.size

end Specification

section Links

variable {α : Type} {previous : Table α} {vars : NameSet} {links : List Link}
  {errors errors' : Point α} {number k : Nat} {s : Stage α} {e : Error α}

/-- A link carries the error of its source to its target. -/
theorem Link.overwrite_of_get? {link : Link} {row : Row α}
    (h : previous.get? link.source = some row) :
    link.overwrite previous errors = errors.insert link.target row.error := by
  rw [overwrite, h]

namespace Stage

/-- Links are followed exactly if all of them hold. -/
theorem follow_eq_ok_iff : follow number (previous.withStage k) vars links errors = .ok errors' ↔
    (∀ link ∈ links, link.Holds previous vars) ∧
      errors' = links.foldl (Link.overwrite previous) errors := by
  induction links generalizing errors with
  | nil => simp [follow, eq_comm]
  | cons link links ih =>
    rw [follow, Table.get?_withStage, List.forall_mem_cons, List.foldl_cons]
    cases hsource : previous.get? link.source with
    | none =>
      have hnone : ¬link.Holds previous vars := by
        rintro ⟨⟨row, hrow, hname⟩, -⟩
        exact Table.get?_eq_none_iff.mp hsource row hrow hname
      simp [hnone]
    | some row =>
      have hmem := Table.exists_get?_iff.mp ⟨row, hsource⟩
      have hholds : link.Holds previous vars ↔ link.target ∈ vars := and_iff_right hmem
      rw [hholds, Link.overwrite_of_get? hsource]
      by_cases htarget : link.target ∈ vars
      · simp [htarget, ih, Row.inStage]
      · simp [htarget]

variable {before : Option (Table α)}

/-- The errors of a stage are those after all links, provided that all links can be followed. -/
theorem linkedErrors_eq_ok_iff :
    s.linkedErrors number (before.map fun t => t.withStage k) errors = .ok errors' ↔
      s.CanFollow before ∧ errors' = s.overwritten before errors := by
  unfold linkedErrors
  cases hlinks : s.links with
  | nil => cases before <;> simp [CanFollow, overwritten, hlinks, eq_comm]
  | cons link links =>
    cases before with
    | none => simp [CanFollow, hlinks]
    | some previous =>
      simp only [Option.map_some, bind_eq_ok_iff, mapError_eq_ok_iff, follow_eq_ok_iff, CanFollow,
        overwritten, hlinks]
      constructor
      · rintro ⟨vars, hvars, hholds, herrors⟩
        exact ⟨fun l hl => ⟨vars, hvars, hholds l hl⟩, herrors⟩
      · rintro ⟨hfollow, herrors⟩
        obtain ⟨vars, hvars, -⟩ := hfollow link List.mem_cons_self
        refine ⟨vars, hvars, ?_, herrors⟩
        intro l hl
        obtain ⟨vars', hvars', hholds⟩ := hfollow l hl
        rwa [Except.ok.inj (hvars.symm.trans hvars')]

end Stage

end Links

namespace StageRun

variable {α : Type} [Scalar α] {shared : RunOptions} {number k : Nat}
  {previous : Option (Table α)} {r : StageRun α} {e : Error α}

/-- A stage succeeds exactly if it yields a table. -/
theorem solve_eq_ok_iff {t' : Table α} :
    r.solve shared number (previous.map fun t => t.withStage k) = .ok t' ↔
      ∃ t, r.Yields shared previous t ∧ t' = t.withStage number := by
  unfold solve
  simp only [bind_eq_ok_iff, Stage.linkedErrors_eq_ok_iff, mapError_eq_ok_iff]
  constructor
  · rintro ⟨_, ⟨hlinks, rfl⟩, t, hsolved, ht⟩
    exact ⟨t, ⟨hlinks, hsolved⟩, (Except.ok.inj ht).symm⟩
  · rintro ⟨t, ⟨hlinks, hsolved⟩, rfl⟩
    exact ⟨_, ⟨hlinks, rfl⟩, t, hsolved, rfl⟩

/-- The stages of a run succeed exactly if their tables form a chain. -/
theorem solveAll_eq_ok_iff {rs : List (StageRun α)} {tables' : List (Table α)} :
    solveAll shared number (previous.map fun t => t.withStage k) rs = .ok tables' ↔
      ∃ tables, Chain shared previous rs tables ∧ tables' = Table.staged number tables := by
  induction rs generalizing number k previous tables' with
  | nil =>
    constructor
    · intro h
      exact ⟨[], .nil, (Except.ok.inj h).symm⟩
    · rintro ⟨_, ⟨⟩, rfl⟩
      rfl
  | cons r rs ih =>
    have hrest (t : Table α) {ts : List (Table α)} :
        solveAll shared (number + 1) (some (t.withStage number)) rs = .ok ts ↔
          ∃ tables, Chain shared (some t) rs tables ∧ ts = Table.staged (number + 1) tables :=
      @ih _ _ (some t) _
    unfold solveAll
    simp only [bind_eq_ok_iff, solve_eq_ok_iff]
    constructor
    · rintro ⟨_, ⟨t, hyields, rfl⟩, ts, hts, htables⟩
      obtain ⟨tables, hchain, rfl⟩ := (hrest t).mp hts
      exact ⟨t :: tables, .cons hyields hchain, (Except.ok.inj htables).symm⟩
    · rintro ⟨_, hchain, rfl⟩
      cases hchain with
      | @cons _ _ t _ tables hyields hchain =>
        exact ⟨_, ⟨t, hyields, rfl⟩, _, (hrest t).mpr ⟨tables, hchain, rfl⟩, rfl⟩

end StageRun

end ErrorBudget
