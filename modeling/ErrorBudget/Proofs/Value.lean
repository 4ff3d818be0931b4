import ErrorBudget.Expr.Value
import ErrorBudget.Proofs.Names
import ErrorBudget.Proofs.Outcome

/-!
# When an expression has a value

The reduction of an expression fails only at its leaves: at a variable that the point does not
assign and at a constant that is no real number. When all leaves resolve, the result is the total
function `denote` of the point (`real_eq_ok_iff`), which depends only on the variables that occur
(`denote_congr`). Evaluation refuses in addition a result that is undefined (`evaluate_eq_ok_iff`).
-/

set_option autoImplicit false

namespace ErrorBudget

/-- Whether a constant has a real value. -/
def Constant.isReal : Constant → Bool
  | imaginaryUnit | complexInfinity => false
  | _ => true

/-- A constant has a value exactly if it is real. -/
theorem Constant.isSome_value? {α : Type} [Scalar α] (c : Constant) :
    (c.value? : Option α).isSome = c.isReal := by
  cases c <;> rfl

namespace Expr

section Leaves

variable {α : Type}

/-- Every variable of an expression satisfies `S`, and every constant satisfies `C`. -/
def LeavesIn (S : String → Prop) (C : Constant → Prop) : Expr α → Prop
  | number _ => True
  | symbol name => S name
  | constant c => C c
  | call _ u => u.LeavesIn S C
  | add u v | sub u v | mul u v | div u v | pow u v => u.LeavesIn S C ∧ v.LeavesIn S C

/-- Every literal of an expression satisfies `L`. -/
def LiteralsIn (L : α → Prop) : Expr α → Prop
  | number x => L x
  | symbol _ | constant _ => True
  | call _ u => u.LiteralsIn L
  | add u v | sub u v | mul u v | div u v | pow u v => u.LiteralsIn L ∧ v.LiteralsIn L

/-- If an expression is itself a literal, it satisfies `L`. -/
def RootIn (L : α → Prop) : Expr α → Prop
  | number x => L x
  | _ => True

/-- A literal whose class all literals are in is in this class itself. -/
theorem LiteralsIn.rootIn {L : α → Prop} {e : Expr α} (h : e.LiteralsIn L) : e.RootIn L := by
  cases e with
  | number x => exact h
  | _ => trivial

/-- Literals of a class are literals of every wider class. -/
theorem LiteralsIn.imp {L L' : α → Prop} {e : Expr α} (hL : ∀ c, L c → L' c)
    (h : e.LiteralsIn L) : e.LiteralsIn L' := by
  induction e with
  | number c => exact hL c h
  | symbol name | constant c => trivial
  | call f u ih => exact ih h
  | add u v ihu ihv | sub u v ihu ihv | mul u v ihu ihv | div u v ihu ihv | pow u v ihu ihv =>
    exact ⟨ihu h.1, ihv h.2⟩

/-- A variable of an expression satisfies what all of them do. -/
theorem LeavesIn.of_contains {S : String → Prop} {C : Constant → Prop} {e : Expr α} {x : String}
    (h : e.LeavesIn S C) (hx : e.contains x = true) : S x := by
  induction e with
  | number y | constant c => simp [contains] at hx
  | symbol name =>
    obtain rfl : name = x := by simpa [contains] using hx
    exact h
  | call f u ih => exact ih h hx
  | add u v ihu ihv | sub u v ihu ihv | mul u v ihu ihv | div u v ihu ihv | pow u v ihu ihv =>
    rcases Bool.or_eq_true_iff.mp hx with hu | hv
    · exact ihu h.1 hu
    · exact ihv h.2 hv

/-- Variables that satisfy something satisfy what follows from it, for the variables that occur. -/
theorem LeavesIn.imp_of_contains {S S' : String → Prop} {C : Constant → Prop} {e : Expr α}
    (hS : ∀ x, e.contains x = true → S x → S' x) (h : e.LeavesIn S C) : e.LeavesIn S' C := by
  induction e with
  | number y => trivial
  | symbol name => exact hS name (by simp [contains]) h
  | constant c => exact h
  | call f u ih => exact ih hS h
  | add u v ihu ihv | sub u v ihu ihv | mul u v ihu ihv | div u v ihu ihv | pow u v ihu ihv =>
    constructor
    · exact ihu (fun x hx => hS x (by simp [contains, hx])) h.1
    · exact ihv (fun x hx => hS x (by simp [contains, hx])) h.2

/-- Variables that satisfy something satisfy what follows from it. -/
theorem LeavesIn.imp {S S' : String → Prop} {C : Constant → Prop} {e : Expr α}
    (hS : ∀ x, S x → S' x) (h : e.LeavesIn S C) : e.LeavesIn S' C :=
  h.imp_of_contains fun x _ => hS x

/-- The variables of an expression are those that occur in it. -/
theorem leavesIn_contains (e : Expr α) : e.LeavesIn (e.contains · = true) fun _ => True := by
  induction e with
  | number y | constant c => trivial
  | symbol name => simp [LeavesIn, contains]
  | call f u ih => exact ih
  | add u v ihu ihv | sub u v ihu ihv | mul u v ihu ihv | div u v ihu ihv | pow u v ihu ihv =>
    constructor
    · exact ihu.imp fun x hx => by simp [contains, hx]
    · exact ihv.imp fun x hx => by simp [contains, hx]

/-- The leaves of an expression resolve at a point. -/
def Resolves (p : Point α) (e : Expr α) : Prop :=
  e.LeavesIn (· ∈ p) (·.isReal)

/-- Whether the leaves resolve does not depend on the number that a variable has. -/
theorem Resolves.insert {p : Point α} {e : Expr α} {x : String} {a : α}
    (h : e.Resolves (p.insert x a)) (t : α) : e.Resolves (p.insert x t) :=
  LeavesIn.imp (fun y hy => by simpa using hy) h

/-- An expression whose leaves resolve leaves no variable open. -/
theorem Resolves.unresolved_eq_nil {p : Point α} {e : Expr α} (h : e.Resolves p) :
    e.unresolved p = [] := by
  apply List.filter_eq_nil_iff.mpr
  intro x hx
  have hvar : e.contains x = true :=
    (contains_iff_mem_vars x e).mpr (Std.ExtTreeSet.mem_toList.mp hx)
  simpa using LeavesIn.of_contains h hvar

end Leaves

variable {α : Type} [Scalar α]

/-- The value of an expression at a point, with zero for a leaf that does not resolve. -/
def denote (p : Point α) : Expr α → α
  | number x => x
  | symbol name => p.getD name 0
  | constant c => c.value?.getD 0
  | call f u => f.apply (u.denote p)
  | add u v => u.denote p + v.denote p
  | sub u v => u.denote p - v.denote p
  | mul u v => u.denote p * v.denote p
  | div u v => u.denote p / v.denote p
  | pow u v =>
    match v with
    | number n => Scalar.powLiteral (u.denote p) n
    | v => Scalar.pow (u.denote p) (v.denote p)

section Denotation

variable {p : Point α}

/-- The value of a literal. -/
@[simp] theorem denote_number (c : α) : (number c).denote p = c := rfl

/-- The value of a variable; one without a value counts as zero. -/
@[simp] theorem denote_symbol (x : String) : (symbol x).denote p = p.getD x 0 := rfl

/-- The value of a call. -/
@[simp] theorem denote_call (f : Func) (u : Expr α) :
    (call f u).denote p = f.apply (u.denote p) := rfl

/-- The value of a sum. -/
@[simp] theorem denote_add (u v : Expr α) : (add u v).denote p = u.denote p + v.denote p := rfl

/-- The value of a difference. -/
@[simp] theorem denote_sub (u v : Expr α) : (sub u v).denote p = u.denote p - v.denote p := rfl

/-- The value of a product. -/
@[simp] theorem denote_mul (u v : Expr α) : (mul u v).denote p = u.denote p * v.denote p := rfl

/-- The value of a quotient. -/
@[simp] theorem denote_div (u v : Expr α) : (div u v).denote p = u.denote p / v.denote p := rfl

/-- The value of a power whose exponent is no literal. -/
theorem denote_pow_of_number? {u v : Expr α} (hv : v.number? = none) :
    (pow u v).denote p = Scalar.pow (u.denote p) (v.denote p) := by
  cases v with
  | number c => simp [number?] at hv
  | _ => rfl

end Denotation

/-- An exponent that is no literal is reduced like any other expression. -/
theorem real_pow {p : Point α} {u v : Expr α} (hv : v.number? = none) :
    (pow u v).real p = do
      let x ← u.real p
      let y ← v.real p
      return Scalar.pow x y := by
  cases v with
  | number c => simp [number?] at hv
  | _ => rfl

/-- An expression reduces to a number exactly when its leaves resolve. -/
theorem real_eq_ok_iff {p : Point α} {e : Expr α} {y : α} :
    e.real p = .ok y ↔ e.Resolves p ∧ e.denote p = y := by
  unfold Resolves
  induction e generalizing y with
  | number x => simp [real, LeavesIn, denote]
  | symbol name =>
    simp only [real, LeavesIn, denote, Std.ExtTreeMap.getD_eq_getD_getElem?,
      ← Std.ExtTreeMap.isSome_getElem?_iff_mem]
    cases p[name]? <;> simp
  | constant c =>
    simp only [real, LeavesIn, denote, ← Constant.isSome_value? (α := α)]
    cases (c.value? : Option α) <;> simp
  | call f u ih => simp [real, LeavesIn, denote, ih, pure, Except.pure]
  | add u v ihu ihv | sub u v ihu ihv | mul u v ihu ihv | div u v ihu ihv =>
    simp [real, LeavesIn, denote, ihu, ihv, pure, Except.pure, and_assoc]
  | pow u v ihu ihv =>
    cases v with
    | number n => simp [real, LeavesIn, denote, ihu, pure, Except.pure]
    | _ =>
      unfold real denote LeavesIn
      simp only [bind_eq_ok_iff, ihu, ihv]
      simp [pure, Except.pure, and_assoc]

/-- An expression is evaluated exactly when its leaves resolve and its value is defined. -/
theorem evaluate_eq_ok_iff {p : Point α} {e : Expr α} {y : α} :
    e.evaluate p = .ok y ↔ e.Resolves p ∧ e.denote p = y ∧ Scalar.isNaN y = false := by
  have hvalue : e.evaluate p = .ok y ↔ e.value p = .ok y := by
    unfold evaluate
    cases e.value p <;> simp [Except.mapError]
  rw [hvalue]
  unfold value
  split
  · simp only [bind_eq_ok_iff, real_eq_ok_iff, defined]
    constructor
    · rintro ⟨x, ⟨hresolves, hx⟩, hdefined⟩
      split_ifs at hdefined with hnan
      obtain rfl := Except.ok.inj hdefined
      exact ⟨hresolves, hx, Bool.eq_false_iff.mpr hnan⟩
    · rintro ⟨hresolves, hx, hnan⟩
      exact ⟨y, ⟨hresolves, hx⟩, by simp [hnan]⟩
  · rename_i hopen
    simp only [reduceCtorEq, false_iff]
    exact fun h => hopen h.1.unresolved_eq_nil

/-- The value depends only on the variables that occur. -/
theorem denote_congr {p q : Point α} {e : Expr α}
    (h : ∀ x, e.contains x = true → p.getD x 0 = q.getD x 0) : e.denote p = e.denote q := by
  induction e with
  | number x => rfl
  | constant c => rfl
  | symbol name => exact h name (by simp [contains])
  | call f u ih => rw [denote, denote, ih h]
  | add u v ihu ihv | sub u v ihu ihv | mul u v ihu ihv | div u v ihu ihv =>
    rw [denote, denote, ihu fun x hx => h x (by simp [contains, hx]),
      ihv fun x hx => h x (by simp [contains, hx])]
  | pow u v ihu ihv =>
    have hu := ihu fun x hx => h x (by simp [contains, hx])
    have hv := ihv fun x hx => h x (by simp [contains, hx])
    cases v with
    | number n => rw [denote, denote, hu]
    | _ =>
      unfold denote
      simp only [hu, hv]

section Agreement

variable {p q : Point α} {e : Expr α} (h : ∀ x, e.contains x = true → p[x]? = q[x]?)

include h

/-- An expression is reduced alike at points that agree on the variables that occur. -/
theorem real_congr : e.real p = e.real q := by
  induction e with
  | number x => rfl
  | constant c => rfl
  | symbol name => rw [real, real, h name (by simp [contains])]
  | call f u ih => rw [real, real, ih h]
  | add u v ihu ihv | sub u v ihu ihv | mul u v ihu ihv | div u v ihu ihv =>
    rw [real, real, ihu fun x hx => h x (by simp [contains, hx]),
      ihv fun x hx => h x (by simp [contains, hx])]
  | pow u v ihu ihv =>
    have hu := ihu fun x hx => h x (by simp [contains, hx])
    have hv := ihv fun x hx => h x (by simp [contains, hx])
    cases v with
    | number n => rw [real, real, hu]
    | _ =>
      unfold real
      simp only [hu, hv]

/-- So the same becomes of it, a value or a failure. -/
theorem evaluate_congr : e.evaluate p = e.evaluate q := by
  have hopen : e.unresolved p = e.unresolved q := by
    refine List.filter_congr fun x hx => ?_
    have hvar := (contains_iff_mem_vars x e).mpr (Std.ExtTreeSet.mem_toList.mp hx)
    rw [decide_eq_decide, NameMap.mem_congr (h x hvar)]
  rw [evaluate, evaluate, value, value, hopen, real_congr h]

end Agreement

end Expr

end ErrorBudget
