import ErrorBudget.Proofs.Double.Arithmetic
import ErrorBudget.Proofs.Double.Integers
import ErrorBudget.Proofs.Undefined

/-!
# Undefined floating-point results

The floating-point operations are undefined where one of their operands is, and comparisons with
something undefined fail. The elementary functions belong to the platform, so they are a parameter
here (`Library`), of which no more is known than its standard says: a function keeps what is
undefined, and so does `pow`, but for the exponent zero and for the base one.

Under these rules an expression that is evaluated has a defined value in every subterm, unless a
power absorbs it (`Library.defined_of_evaluate`). This exception is real: the value of `sqrt(x)**0`
at `-4` is one (`not_realThroughout_of_root`).
-/

set_option autoImplicit false

namespace ErrorBudget.Double

open Float.Model Float.Model.UnpackedFloat

section Operations

variable {x y : Float}

/-- Undefined is a number whose parts say so. -/
theorem isNaN_iff : x.isNaN = true ↔ parts x = .notANumber := by
  rw [isNaN_eq]
  cases parts x <;> simp [UnpackedFloat.isNaN]

/-- A result that is undefined before it is packed is undefined. -/
theorem isNaN_of_parts {u : UnpackedFloat} (h : parts x = (Float.Model.pack u).unpack)
    (hu : u = .notANumber) : x.isNaN = true := by
  rw [isNaN_iff, h, hu]
  exact Packs.notANumber.unpack_pack

/-- An operation on the parts that is undefined where one of its operands is. -/
theorem isNaN_of_operation {op : UnpackedFloat → UnpackedFloat → UnpackedFloat} {z : Float}
    (hz : parts z = (Float.Model.pack (op (parts x) (parts y))).unpack)
    (hleft : ∀ u, op .notANumber u = .notANumber) (hright : ∀ u, op u .notANumber = .notANumber)
    (h : x.isNaN = true ∨ y.isNaN = true) : z.isNaN = true := by
  refine isNaN_of_parts hz ?_
  rcases h with hx | hy
  · rw [isNaN_iff.mp hx, hleft]
  · rw [isNaN_iff.mp hy, hright]

/-- A sum with an undefined term is undefined. -/
theorem isNaN_add (h : x.isNaN = true ∨ y.isNaN = true) : (x + y).isNaN = true :=
  isNaN_of_operation (parts_add x y) (fun _ => rfl) (fun u => by cases u <;> rfl) h

/-- A difference with an undefined term is undefined. -/
theorem isNaN_sub (h : x.isNaN = true ∨ y.isNaN = true) : (x - y).isNaN = true :=
  isNaN_of_operation (parts_sub x y) (fun _ => rfl) (fun u => by cases u <;> rfl) h

/-- A product with an undefined factor is undefined. -/
theorem isNaN_mul (h : x.isNaN = true ∨ y.isNaN = true) : (x * y).isNaN = true :=
  isNaN_of_operation (parts_mul x y) (fun _ => rfl) (fun u => by cases u <;> rfl) h

/-- A quotient with an undefined part is undefined. -/
theorem isNaN_div (h : x.isNaN = true ∨ y.isNaN = true) : (x / y).isNaN = true :=
  isNaN_of_operation (parts_div x y) (fun _ => rfl) (fun u => by cases u <;> rfl) h

/-- The root of something undefined is undefined. -/
theorem isNaN_sqrt (h : x.isNaN = true) : x.sqrt.isNaN = true := by
  refine isNaN_of_parts (parts_sqrt x) ?_
  rw [isNaN_iff.mp h]
  rfl

/-- Equality of numbers can be told by their parts. -/
theorem beq_eq (x y : Float) : (x == y) = (parts x).beq (parts y) := by rfl

/-- What is undefined equals nothing. -/
theorem beq_eq_false (h : x.isNaN = true) : (x == y) = false := by
  rw [beq_eq, isNaN_iff.mp h]
  rfl

/-- What is undefined is neither zero nor above nor below it. -/
theorem isNaN_sign (h : x.isNaN = true) : (Scalar.sign x).isNaN = true := by
  have hparts := isNaN_iff.mp h
  have hzero : ¬(x == 0) = true := Bool.eq_false_iff.mp (beq_eq_false h)
  have habove : ¬0 < x := by
    intro hlt
    have hle : UnpackedFloat.lt (.zero .positive) (parts x) = true := of_decide_eq_true hlt
    rw [hparts] at hle
    contradiction
  have hbelow : ¬x < 0 := by
    rw [lt_zero_iff, hparts]
    exact Bool.false_ne_true
  have hsign : Scalar.sign x = x := by
    unfold Scalar.sign
    rw [if_neg hzero, if_neg habove, if_neg hbelow]
  rwa [hsign]

/-- A finite number is not undefined. -/
theorem isNaN_eq_false_of_isFinite (h : x.isFinite = true) : x.isNaN = false := by
  rw [isFinite_eq] at h
  rw [isNaN_eq]
  cases hx : parts x <;> simp_all [UnpackedFloat.isFinite, UnpackedFloat.isNaN]

/-- A number that counts as an integer is finite. -/
theorem isFinite_of_integer? {n : Int} (h : Scalar.integer? x = some n) : x.isFinite = true := by
  by_contra hinfinite
  have hnone : Scalar.integer? x = none := if_neg hinfinite
  rw [hnone] at h
  contradiction

/-- A number that is the integer zero is a zero of either sign. -/
theorem beq_zero_of_integer? (h : Scalar.integer? x = some 0) : (x == 0) = true := by
  have hfinite := isFinite_of_integer? h
  have hexact : Scalar.integer? x = (Binary.ofFloat x).integer? := if_pos hfinite
  rw [isFinite_eq] at hfinite
  rw [beq_eq, parts_zero]
  cases hx : parts x with
  | notANumber | infinity s => simp [hx, UnpackedFloat.isFinite] at hfinite
  | zero s => rfl
  | finite s m e hpos =>
    rw [hexact, ofFloat_of_finite hx] at h
    have hmantissa : 0 < m * 2 ^ e.toNat := Nat.mul_pos hpos (Nat.two_pow_pos _)
    rw [integer?_exactOf h] at hmantissa
    exact absurd hmantissa (by simp)

end Operations

/-- The elementary functions of a platform. -/
structure Library where
  exp : Float → Float
  log : Float → Float
  sin : Float → Float
  cos : Float → Float
  tan : Float → Float
  asin : Float → Float
  acos : Float → Float
  atan : Float → Float
  sinh : Float → Float
  cosh : Float → Float
  tanh : Float → Float
  asinh : Float → Float
  acosh : Float → Float
  atanh : Float → Float
  pow : Float → Float → Float

namespace Library

/-- The functions of one argument. -/
def functions (lib : Library) : List (Float → Float) :=
  [lib.exp, lib.log, lib.sin, lib.cos, lib.tan, lib.asin, lib.acos, lib.atan, lib.sinh, lib.cosh,
    lib.tanh, lib.asinh, lib.acosh, lib.atanh]

/-- What the standard requires of undefined arguments: they are kept, except that a power is one for
the exponent zero and for the base one. -/
structure KeepsUndefined (lib : Library) : Prop where
  functions : ∀ f ∈ lib.functions, ∀ x : Float, x.isNaN = true → (f x).isNaN = true
  pow_base : ∀ x y : Float, x.isNaN = true → (lib.pow x y).isNaN = true ∨ (y == 0) = true
  pow_exponent : ∀ x y : Float, y.isNaN = true → (lib.pow x y).isNaN = true ∨ (x == 1) = true

/-- Floating-point numbers on a platform with this library. -/
def Number (_ : Library) : Type := Float

/-- The numbers in binary64, with the functions of another library. -/
instance (lib : Library) : Scalar lib.Number :=
  { (inferInstance : Scalar Float) with
    exp := lib.exp
    log := lib.log
    sin := lib.sin
    cos := lib.cos
    tan := lib.tan
    asin := lib.asin
    acos := lib.acos
    atan := lib.atan
    sinh := lib.sinh
    cosh := lib.cosh
    tanh := lib.tanh
    asinh := lib.asinh
    acosh := lib.acosh
    atanh := lib.atanh
    pow := lib.pow }

/-- The library of the platform that runs. -/
def platform : Library where
  exp := Float.exp
  log := Float.log
  sin := Float.sin
  cos := Float.cos
  tan := Float.tan
  asin := Float.asin
  acos := Float.acos
  atan := Float.atan
  sinh := Float.sinh
  cosh := Float.cosh
  tanh := Float.tanh
  asinh := Float.asinh
  acosh := Float.acosh
  atanh := Float.atanh
  pow := Float.pow

/-- The numbers with the library of the platform are those that the program runs on. -/
theorem scalar_platform :
    (inferInstance : Scalar platform.Number) = (inferInstance : Scalar Float) := rfl

variable {lib : Library}

/-- No function makes a number of something undefined, if the library keeps what is undefined. -/
theorem KeepsUndefined.apply (h : lib.KeepsUndefined) (f : Func) {x : lib.Number}
    (hx : Scalar.isNaN x = true) : Scalar.isNaN (f.apply x) = true := by
  have hkept (g : Float → Float) (hg : g ∈ lib.functions) : (g x).isNaN = true :=
    h.functions g hg x hx
  unfold Library.functions at hkept
  cases f with
  | sin => exact hkept lib.sin (by simp)
  | cos => exact hkept lib.cos (by simp)
  | tan => exact hkept lib.tan (by simp)
  | cot => exact isNaN_div (.inr (hkept lib.tan (by simp)))
  | sec => exact isNaN_div (.inr (hkept lib.cos (by simp)))
  | csc => exact isNaN_div (.inr (hkept lib.sin (by simp)))
  | asin => exact hkept lib.asin (by simp)
  | acos => exact hkept lib.acos (by simp)
  | atan => exact hkept lib.atan (by simp)
  | sinh => exact hkept lib.sinh (by simp)
  | cosh => exact hkept lib.cosh (by simp)
  | tanh => exact hkept lib.tanh (by simp)
  | asinh => exact hkept lib.asinh (by simp)
  | acosh => exact hkept lib.acosh (by simp)
  | atanh => exact hkept lib.atanh (by simp)
  | exp => exact hkept lib.exp (by simp)
  | log | ln => exact hkept lib.log (by simp)
  | sqrt => exact isNaN_sqrt hx
  | abs => exact (isNaN_abs x).trans hx
  | sign => exact isNaN_sign hx

/-- With such a library, only powers do not keep what is undefined. -/
theorem KeepsUndefined.number (h : lib.KeepsUndefined) : Scalar.KeepsUndefined lib.Number where
  add := isNaN_add
  sub := isNaN_sub
  mul := isNaN_mul
  div := isNaN_div
  apply := h.apply
  pow_base := h.pow_base _ _
  pow_exponent := h.pow_exponent _ _
  integer hx := isNaN_eq_false_of_isFinite (isFinite_of_integer? hx)
  integer_zero hx := beq_zero_of_integer? hx

/-- An expression that is evaluated has all its variables assigned and no constant without a real
value, and each of its subterms has a defined value or stands in an undefined operand of a power
that absorbs it: its exponent is zero, or its base is one. So it is real in all its parts exactly if
no power absorbs anything. -/
theorem defined_of_evaluate (lib : Library) (hlib : lib.KeepsUndefined) (e : Expr lib.Number)
    (p : Point lib.Number) (y : lib.Number) (h : e.evaluate p = .ok y) :
    (∀ x, e.contains x = true → x ∈ p) ∧
    .constant .imaginaryUnit ∉ e.subterms ∧ .constant .complexInfinity ∉ e.subterms ∧
    (∀ s ∈ e.subterms, (∃ z, s.real p = .ok z ∧ Scalar.isNaN z = false) ∨
      ∃ w ∈ e.subterms, Expr.Absorbs p s w) ∧
    (e.RealThroughout p ↔ ∀ w ∈ e.subterms, ∀ s, ¬Expr.Absorbs p s w) := by
  refine ⟨fun x hx => (Expr.evaluate_eq_ok_iff.mp h).1.of_contains hx, ?_, ?_, ?_, ?_⟩
  · exact fun hc => Bool.false_ne_true (Expr.isReal_of_evaluate h hc)
  · exact fun hc => Bool.false_ne_true (Expr.isReal_of_evaluate h hc)
  · exact fun s hs => Expr.defined_or_absorbed h hlib.number hs
  · exact Expr.realThroughout_iff hlib.number h

/-- A function that keeps what is undefined, and otherwise does as another one. -/
def kept (f : Float → Float) (x : Float) : Float :=
  if x.isNaN then x else f x

/-- A power that keeps what is undefined unless the exponent is zero or the base is one, and
otherwise does as another one. -/
def keptPower (f : Float → Float → Float) (x y : Float) : Float :=
  if y == 0 || x == 1 then 1 else if x.isNaN || y.isNaN then 0 / 0 else f x y

/-- The library that follows the standard for undefined arguments and otherwise does as another
one. -/
def guarded (lib : Library) : Library where
  exp := kept lib.exp
  log := kept lib.log
  sin := kept lib.sin
  cos := kept lib.cos
  tan := kept lib.tan
  asin := kept lib.asin
  acos := kept lib.acos
  atan := kept lib.atan
  sinh := kept lib.sinh
  cosh := kept lib.cosh
  tanh := kept lib.tanh
  asinh := kept lib.asinh
  acosh := kept lib.acosh
  atanh := kept lib.atanh
  pow := keptPower lib.pow

/-- A power with an undefined operand is undefined, but for the two exceptions. -/
theorem isNaN_keptPower (f : Float → Float → Float) {x y : Float}
    (h : x.isNaN = true ∨ y.isNaN = true) (hexponent : ¬(y == 0) = true)
    (hbase : ¬(x == 1) = true) : (keptPower f x y).isNaN = true := by
  have hnone : ¬(y == 0 || x == 1) = true := by simp [hexponent, hbase]
  rw [keptPower, if_neg hnone, if_pos (Bool.or_eq_true_iff.mpr h)]
  rfl

/-- A guarded library keeps what is undefined. -/
theorem keepsUndefined_guarded (lib : Library) : lib.guarded.KeepsUndefined where
  functions g hg x hx := by
    have hguarded : lib.guarded.functions = lib.functions.map kept := rfl
    obtain ⟨f, -, rfl⟩ := List.mem_map.mp (hguarded ▸ hg)
    rw [kept, if_pos hx]
    exact hx
  pow_base x y hx := by
    by_cases hzero : (y == 0) = true
    · exact .inr hzero
    · exact .inl (isNaN_keptPower lib.pow (.inl hx) hzero (Bool.eq_false_iff.mp (beq_eq_false hx)))
  pow_exponent x y hy := by
    by_cases hone : (x == 1) = true
    · exact .inr hone
    · exact .inl (isNaN_keptPower lib.pow (.inr hy) (Bool.eq_false_iff.mp (beq_eq_false hy)) hone)

/-- At `x = -4`, `y = 3` the value of `sqrt(x)**(y - y)` is one, although the base is undefined; the
power absorbs it. -/
theorem defined_of_evaluate_root :
    ∃ (e : Expr platform.guarded.Number) (p : Point platform.guarded.Number)
      (y : platform.guarded.Number), e.evaluate p = .ok y ∧ (y == 1) = true ∧
      platform.guarded.KeepsUndefined ∧ Expr.Undefined p (.call .sqrt (.symbol "x")) ∧
      Expr.Absorbs p (.call .sqrt (.symbol "x")) e := by
  let lib := platform.guarded
  let root : Expr lib.Number := .call .sqrt (.symbol "x")
  let e : Expr lib.Number := .pow root (.sub (.symbol "y") (.symbol "y"))
  let p : Point lib.Number := NameMap.ofEntries [("x", (-4 : Float)), ("y", (3 : Float))]
  have hvalue : ((e.evaluate p).toOption.map fun y => y == 1) = some true := by decide +kernel
  have hroot : ((root.real p).toOption.map Scalar.isNaN) = some true := by decide +kernel
  obtain ⟨y, hy, hone⟩ := Option.map_eq_some_iff.mp hvalue
  obtain ⟨x, hx, hnan⟩ := Option.map_eq_some_iff.mp hroot
  have hevaluate : e.evaluate p = .ok y := toOption_eq_some_iff.mp hy
  have hreal : root.real p = .ok x := toOption_eq_some_iff.mp hx
  have hlib := keepsUndefined_guarded platform
  obtain ⟨-, -, -, hparts, -⟩ := defined_of_evaluate lib hlib e p y hevaluate
  refine ⟨e, p, y, hevaluate, hone, hlib, ⟨x, hreal, hnan⟩, ?_⟩
  rcases hparts root (by simp [e, root, Expr.subterms]) with ⟨z, hz, hdefined⟩ | ⟨w, hw, habsorbs⟩
  · obtain rfl := Except.ok.inj (hreal.symm.trans hz)
    exact absurd hnan (by simp [hdefined])
  · -- The expression is its only power.
    simp only [e, root, Expr.subterms, List.mem_cons, List.cons_append, List.nil_append,
      List.not_mem_nil, or_false] at hw
    rcases hw with rfl | rfl | rfl | rfl | rfl | rfl
    · exact habsorbs
    all_goals cases habsorbs

/-- So evaluation does not insist that an expression is real in all its parts: the value of
`sqrt(x)**0` at `x = -4` is one. -/
theorem not_realThroughout_of_root : ¬∀ (e : Expr Float) (p : Point Float) (y : Float),
    e.evaluate p = .ok y → e.RealThroughout p := by
  intro hall
  let root : Expr Float := .call .sqrt (.symbol "x")
  let e : Expr Float := .pow root (.number 0)
  let p : Point Float := NameMap.ofEntries [("x", -4)]
  have hroot : ((root.real p).toOption.map Scalar.isNaN) = some true := by decide +kernel
  obtain ⟨x, hx, hnan⟩ := Option.map_eq_some_iff.mp hroot
  have hok : (e.evaluate p).isOk = true := by decide +kernel
  obtain ⟨y, hy⟩ := exists_eq_ok_of_isOk hok
  exact (hall e p y hy).defined root (by simp [e, Expr.subterms, Expr.mem_subterms_self])
    ⟨x, toOption_eq_some_iff.mp hx, hnan⟩

end Library

end ErrorBudget.Double
