import ErrorBudget.Proofs.Value

/-!
# Undefined results inside an expression

Arithmetic turns an undefined operand into an undefined result, so that one test of the final result
is enough to find it. Powers are the exception: with the exponent zero a power is one whatever its
base, and a power of one is one whatever its exponent. `Scalar.KeepsUndefined` says of a kind of
numbers that there is no other.

When an expression is evaluated, every subterm has a real value, or it stands in an undefined
operand of a power that absorbs it (`defined_or_absorbed`).
-/

set_option autoImplicit false

namespace ErrorBudget

namespace Scalar

/-- Numbers whose arithmetic keeps what is undefined, except where a power absorbs it. -/
structure KeepsUndefined (α : Type) [Scalar α] : Prop where
  add {x y : α} : isNaN x = true ∨ isNaN y = true → isNaN (x + y) = true
  sub {x y : α} : isNaN x = true ∨ isNaN y = true → isNaN (x - y) = true
  mul {x y : α} : isNaN x = true ∨ isNaN y = true → isNaN (x * y) = true
  div {x y : α} : isNaN x = true ∨ isNaN y = true → isNaN (x / y) = true
  apply (f : Func) {x : α} : isNaN x = true → isNaN (f.apply x) = true
  pow_base {x y : α} : isNaN x = true → isNaN (pow x y) = true ∨ (y == 0) = true
  pow_exponent {x y : α} : isNaN y = true → isNaN (pow x y) = true ∨ (x == 1) = true
  /-- What equals an integer is defined. -/
  integer {x : α} {n : Int} : integer? x = some n → isNaN x = false
  /-- What equals the integer zero equals zero. -/
  integer_zero {x : α} : integer? x = some 0 → (x == 0) = true

namespace KeepsUndefined

variable {α : Type} [Scalar α] (hα : KeepsUndefined α) {r x y : α}

include hα

/-- An undefined factor stays, and so does an undefined base that is taken at least once. -/
theorem mulPow {n : Nat} (h : isNaN r = true ∨ isNaN x = true ∧ 0 < n) :
    isNaN (Scalar.mulPow r x n) = true := by
  -- A base that counts at a higher digit of the exponent only is squared on the way there, which
  -- leaves it undefined, so the induction is over all bases and factors.
  induction n using Nat.strongRecOn generalizing r x with
  | _ n ih =>
    have hfactor : isNaN (if n % 2 = 1 then r * x else r) = true ∨ isNaN x = true ∧ 0 < n / 2 := by
      rcases h with hr | ⟨hx, hn⟩
      · left
        split_ifs
        · exact hα.mul (.inl hr)
        · exact hr
      · by_cases hodd : n % 2 = 1
        · rw [if_pos hodd]
          exact .inl (hα.mul (.inr hx))
        · exact .inr ⟨hx, by omega⟩
    unfold Scalar.mulPow
    dsimp only
    split
    · rename_i hlast
      exact hfactor.resolve_right fun hbase => by omega
    · exact ih (n / 2) (by omega) (hfactor.imp_right (And.imp_left fun hx => hα.mul (.inl hx)))

/-- Repeated squaring keeps an undefined base, unless the exponent is zero. -/
theorem powInt {n : Int} (hx : isNaN x = true) (hn : n ≠ 0) : isNaN (Scalar.powInt x n) = true := by
  have hpower : isNaN (Scalar.mulPow 1 x n.natAbs) = true := hα.mulPow (.inr ⟨hx, by omega⟩)
  unfold Scalar.powInt
  split_ifs
  · exact hα.div (.inr hpower)
  · exact hpower

/-- A literal exponent absorbs an undefined base like any other exponent does. -/
theorem powLiteral_base (hx : isNaN x = true) :
    isNaN (powLiteral x y) = true ∨ (y == 0) = true := by
  unfold powLiteral
  split
  · rename_i n hn
    by_cases hzero : n = 0
    · exact .inr (hα.integer_zero (hzero ▸ hn))
    · split_ifs
      · exact .inl (hα.powInt hx hzero)
      · exact hα.pow_base hx
  · exact hα.pow_base hx

/-- A power with an undefined exponent is undefined, unless the base is one. -/
theorem powLiteral_exponent (hy : isNaN y = true) :
    isNaN (powLiteral x y) = true ∨ (x == 1) = true := by
  unfold powLiteral
  split
  · rename_i n hn
    exact absurd hy (by simp [hα.integer hn])
  · exact hα.pow_exponent hy

end KeepsUndefined

end Scalar

namespace Expr

variable {α : Type}

/-- The subterms of an expression, with the expression itself. -/
def subterms : Expr α → List (Expr α)
  | number x => [number x]
  | symbol name => [symbol name]
  | constant c => [constant c]
  | call f u => call f u :: u.subterms
  | add u v => add u v :: (u.subterms ++ v.subterms)
  | sub u v => sub u v :: (u.subterms ++ v.subterms)
  | mul u v => mul u v :: (u.subterms ++ v.subterms)
  | div u v => div u v :: (u.subterms ++ v.subterms)
  | pow u v => pow u v :: (u.subterms ++ v.subterms)

/-- An expression is one of its subterms. -/
theorem mem_subterms_self (e : Expr α) : e ∈ e.subterms := by
  cases e <;> simp [subterms]

/-- A subterm of a subterm is a subterm. -/
theorem mem_subterms_trans {e s w : Expr α} (hs : s ∈ w.subterms) (hw : w ∈ e.subterms) :
    s ∈ e.subterms := by
  induction e with
  | number x | symbol name | constant c =>
    obtain rfl := List.mem_singleton.mp hw
    exact hs
  | call f u ih =>
    rcases List.mem_cons.mp hw with rfl | hw
    · exact hs
    · exact List.mem_cons_of_mem _ (ih hw)
  | add u v ihu ihv | sub u v ihu ihv | mul u v ihu ihv | div u v ihu ihv | pow u v ihu ihv =>
    rcases List.mem_cons.mp hw with rfl | hw
    · exact hs
    · rcases List.mem_append.mp hw with hw | hw
      · exact List.mem_cons_of_mem _ (List.mem_append_left _ (ihu hw))
      · exact List.mem_cons_of_mem _ (List.mem_append_right _ (ihv hw))

/-- A subterm has no other leaves. -/
theorem LeavesIn.of_mem_subterms {S : String → Prop} {C : Constant → Prop} {e s : Expr α}
    (h : e.LeavesIn S C) (hs : s ∈ e.subterms) : s.LeavesIn S C := by
  induction e with
  | number x | symbol name | constant c =>
    obtain rfl := List.mem_singleton.mp hs
    exact h
  | call f u ih =>
    rcases List.mem_cons.mp hs with rfl | hu
    · exact h
    · exact ih h hu
  | add u v ihu ihv | sub u v ihu ihv | mul u v ihu ihv | div u v ihu ihv | pow u v ihu ihv =>
    rcases List.mem_cons.mp hs with rfl | hs
    · exact h
    · rcases List.mem_append.mp hs with hu | hv
      · exact ihu h.1 hu
      · exact ihv h.2 hv

variable [Scalar α] {p : Point α} {e u v s : Expr α}

/-- An expression has no defined value at a point, although all its leaves have one. -/
def Undefined (p : Point α) (e : Expr α) : Prop :=
  ∃ x, e.real p = .ok x ∧ Scalar.isNaN x = true

/-- An expression is reduced to a number that equals `c`. -/
def Equals (p : Point α) (e : Expr α) (c : α) : Prop :=
  ∃ x, e.real p = .ok x ∧ (x == c) = true

/-- An expression is a power that does not depend on its undefined operand, in which `s` stands: the
exponent is zero, or the base is one. -/
inductive Absorbs (p : Point α) (s : Expr α) : Expr α → Prop
  | base {u v : Expr α} (hs : s ∈ u.subterms) (hu : u.Undefined p) (hv : v.Equals p 0) :
    Absorbs p s (pow u v)
  | exponent {u v : Expr α} (hs : s ∈ v.subterms) (hv : v.Undefined p) (hu : u.Equals p 1) :
    Absorbs p s (pow u v)

/-- An expression is real at a point in all its parts: every variable has a number, no constant is
without a real value, and no subterm is undefined. -/
structure RealThroughout (p : Point α) (e : Expr α) : Prop where
  assigned : ∀ x, e.contains x = true → x ∈ p
  noImaginaryUnit : constant .imaginaryUnit ∉ e.subterms
  noComplexInfinity : constant .complexInfinity ∉ e.subterms
  defined : ∀ s ∈ e.subterms, ¬s.Undefined p

/-- At a point that resolves it, an expression has a real value, which may be undefined. -/
theorem Resolves.real_eq (h : e.Resolves p) : e.real p = .ok (e.denote p) :=
  real_eq_ok_iff.mpr ⟨h, rfl⟩

/-- An expression is undefined exactly if its value is. -/
theorem undefined_iff (h : e.Resolves p) : e.Undefined p ↔ Scalar.isNaN (e.denote p) = true := by
  simp [Undefined, h.real_eq]

/-- An expression equals a number exactly if its value does. -/
theorem equals_iff (h : e.Resolves p) {c : α} : e.Equals p c ↔ (e.denote p == c) = true := by
  simp [Equals, h.real_eq]

section Powers

variable (hα : Scalar.KeepsUndefined α) (he : (pow u v).Resolves p)

include hα he

/-- An undefined base makes a power undefined, or the power absorbs it. -/
theorem undefined_or_absorbs_base (hs : s ∈ u.subterms) (hu : u.Undefined p) :
    (pow u v).Undefined p ∨ Absorbs p s (pow u v) := by
  have hnan := (undefined_iff he.1).mp hu
  have hpow : Scalar.isNaN ((pow u v).denote p) = true ∨ (v.denote p == 0) = true := by
    cases v with
    | number c => exact hα.powLiteral_base hnan
    | _ => exact hα.pow_base hnan
  exact hpow.imp (undefined_iff he).mpr fun hzero => .base hs hu ((equals_iff he.2).mpr hzero)

/-- An undefined exponent makes a power undefined, or the power absorbs it. -/
theorem undefined_or_absorbs_exponent (hs : s ∈ v.subterms) (hv : v.Undefined p) :
    (pow u v).Undefined p ∨ Absorbs p s (pow u v) := by
  have hnan := (undefined_iff he.2).mp hv
  have hpow : Scalar.isNaN ((pow u v).denote p) = true ∨ (u.denote p == 1) = true := by
    cases v with
    | number c => exact hα.powLiteral_exponent hnan
    | _ => exact hα.pow_exponent hnan
  exact hpow.imp (undefined_iff he).mpr fun hone => .exponent hs hv ((equals_iff he.1).mpr hone)

end Powers

/-- What becomes of an undefined subterm of an operation, if its operands account for theirs. -/
theorem undefined_or_absorbed_of_operands (hsubterms : e.subterms = e :: (u.subterms ++ v.subterms))
    (hs : s ∈ e.subterms) (hundefined : s.Undefined p)
    (ihu : s ∈ u.subterms → u.Undefined p ∨ ∃ w ∈ u.subterms, Absorbs p s w)
    (ihv : s ∈ v.subterms → v.Undefined p ∨ ∃ w ∈ v.subterms, Absorbs p s w)
    (hu : s ∈ u.subterms → u.Undefined p → e.Undefined p ∨ Absorbs p s e)
    (hv : s ∈ v.subterms → v.Undefined p → e.Undefined p ∨ Absorbs p s e) :
    e.Undefined p ∨ ∃ w ∈ e.subterms, Absorbs p s w := by
  have hself : e.Undefined p ∨ Absorbs p s e → e.Undefined p ∨ ∃ w ∈ e.subterms, Absorbs p s w :=
    Or.imp_right fun h => ⟨e, mem_subterms_self e, h⟩
  rw [hsubterms] at hs ⊢
  rcases List.mem_cons.mp hs with rfl | hs
  · exact .inl hundefined
  · rcases List.mem_append.mp hs with hs | hs
    · rcases ihu hs with h | ⟨w, hw, habsorbs⟩
      · exact hsubterms ▸ hself (hu hs h)
      · exact .inr ⟨w, by simp [hw], habsorbs⟩
    · rcases ihv hs with h | ⟨w, hw, habsorbs⟩
      · exact hsubterms ▸ hself (hv hs h)
      · exact .inr ⟨w, by simp [hw], habsorbs⟩

/-- Operations that are undefined where one of their operands is. -/
theorem undefined_or_absorbed_of_keeps (hsubterms : e.subterms = e :: (u.subterms ++ v.subterms))
    (he : e.Resolves p) (hu : u.Resolves p) (hv : v.Resolves p)
    (hkeeps : Scalar.isNaN (u.denote p) = true ∨ Scalar.isNaN (v.denote p) = true →
      Scalar.isNaN (e.denote p) = true)
    (hs : s ∈ e.subterms) (hundefined : s.Undefined p)
    (ihu : s ∈ u.subterms → u.Undefined p ∨ ∃ w ∈ u.subterms, Absorbs p s w)
    (ihv : s ∈ v.subterms → v.Undefined p ∨ ∃ w ∈ v.subterms, Absorbs p s w) :
    e.Undefined p ∨ ∃ w ∈ e.subterms, Absorbs p s w := by
  rw [← undefined_iff hu, ← undefined_iff hv, ← undefined_iff he] at hkeeps
  exact undefined_or_absorbed_of_operands hsubterms hs hundefined ihu ihv
    (fun _ h => .inl (hkeeps (.inl h))) (fun _ h => .inl (hkeeps (.inr h)))

/-- An undefined subterm makes the expression undefined, unless a power absorbs it on the way. -/
theorem undefined_or_absorbed (hα : Scalar.KeepsUndefined α) (he : e.Resolves p)
    (hs : s ∈ e.subterms) (hundefined : s.Undefined p) :
    e.Undefined p ∨ ∃ w ∈ e.subterms, Absorbs p s w := by
  induction e with
  | number x | symbol name | constant c =>
    obtain rfl := List.mem_singleton.mp hs
    exact .inl hundefined
  | call f u ih =>
    have hu : u.Resolves p := he
    rcases List.mem_cons.mp hs with rfl | hs
    · exact .inl hundefined
    · rcases ih hu hs with h | ⟨w, hw, habsorbs⟩
      · exact .inl ((undefined_iff he).mpr (hα.apply f ((undefined_iff hu).mp h)))
      · exact .inr ⟨w, List.mem_cons_of_mem _ hw, habsorbs⟩
  | add u v ihu ihv =>
    exact undefined_or_absorbed_of_keeps rfl he he.1 he.2 hα.add hs hundefined (ihu he.1) (ihv he.2)
  | sub u v ihu ihv =>
    exact undefined_or_absorbed_of_keeps rfl he he.1 he.2 hα.sub hs hundefined (ihu he.1) (ihv he.2)
  | mul u v ihu ihv =>
    exact undefined_or_absorbed_of_keeps rfl he he.1 he.2 hα.mul hs hundefined (ihu he.1) (ihv he.2)
  | div u v ihu ihv =>
    exact undefined_or_absorbed_of_keeps rfl he he.1 he.2 hα.div hs hundefined (ihu he.1) (ihv he.2)
  | pow u v ihu ihv =>
    -- The one operation that may end the way of an undefined operand to the root.
    exact undefined_or_absorbed_of_operands rfl hs hundefined (ihu he.1) (ihv he.2)
      (undefined_or_absorbs_base hα he) (undefined_or_absorbs_exponent hα he)

section Evaluation

variable {y : α} (h : e.evaluate p = .ok y)

include h

/-- What is evaluated has no constant without a real value. -/
theorem isReal_of_evaluate {c : Constant} (hc : constant c ∈ e.subterms) : c.isReal = true := by
  obtain ⟨he, -, -⟩ := evaluate_eq_ok_iff.mp h
  exact he.of_mem_subterms hc

/-- In what is evaluated, every subterm has a defined value, or a power absorbs it. -/
theorem defined_or_absorbed (hα : Scalar.KeepsUndefined α) (hs : s ∈ e.subterms) :
    (∃ x, s.real p = .ok x ∧ Scalar.isNaN x = false) ∨ ∃ w ∈ e.subterms, Absorbs p s w := by
  obtain ⟨he, rfl, hdefined⟩ := evaluate_eq_ok_iff.mp h
  have hresolves : s.Resolves p := he.of_mem_subterms hs
  cases hnan : Scalar.isNaN (s.denote p) with
  | false => exact .inl ⟨s.denote p, hresolves.real_eq, hnan⟩
  | true =>
    rcases undefined_or_absorbed hα he hs ((undefined_iff hresolves).mpr hnan) with hroot | habsorbs
    · exact absurd ((undefined_iff he).mp hroot) (by simp [hdefined])
    · exact .inr habsorbs

end Evaluation

/-- A power that absorbs something has an undefined operand. -/
theorem Absorbs.exists_undefined {w : Expr α} (h : Absorbs p s w) :
    ∃ u ∈ w.subterms, u.Undefined p := by
  cases h with
  | @base u v hs hu hv => exact ⟨u, by simp [subterms, mem_subterms_self], hu⟩
  | @exponent u v hs hv hu => exact ⟨v, by simp [subterms, mem_subterms_self], hv⟩

/-- What is evaluated is real in all its parts exactly if no power absorbs anything. -/
theorem realThroughout_iff (hα : Scalar.KeepsUndefined α) {y : α} (h : e.evaluate p = .ok y) :
    e.RealThroughout p ↔ ∀ w ∈ e.subterms, ∀ s, ¬Absorbs p s w := by
  constructor
  · intro hreal w hw s habsorbs
    obtain ⟨u, hu, hundefined⟩ := habsorbs.exists_undefined
    exact hreal.defined u (mem_subterms_trans hu hw) hundefined
  · intro hnone
    refine ⟨fun x hx => (evaluate_eq_ok_iff.mp h).1.of_contains hx, ?_, ?_, ?_⟩
    · exact fun hc => Bool.false_ne_true (isReal_of_evaluate h hc)
    · exact fun hc => Bool.false_ne_true (isReal_of_evaluate h hc)
    · rintro s hs ⟨x, hx, hnan⟩
      rcases defined_or_absorbed h hα hs with ⟨x', hx', hdefined⟩ | ⟨w, hw, habsorbs⟩
      · obtain rfl := Except.ok.inj (hx.symm.trans hx')
        exact absurd hnan (by simp [hdefined])
      · exact hnone w hw s habsorbs

end Expr

end ErrorBudget
