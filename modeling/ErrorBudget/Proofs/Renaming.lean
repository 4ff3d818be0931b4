import ErrorBudget.Double
import ErrorBudget.Expr.Derivative
import ErrorBudget.Proofs.Substitution

/-!
# Renaming of variables

A renaming gives other names to some of the variables. Differentiation and evaluation do not depend
on names (`Expr.derive_renamed`): the derivative of a renamed expression by the new name of a
variable is the renamed derivative, and the value of a renamed expression is the value at the point
where every variable has the number of its new name.

The rules of differentiation look at an expression in two ways, at its literals and at whether it
contains the variable. A renaming keeps the literals, and it keeps what contains the variable unless
another variable gets the same name.
-/

set_option autoImplicit false

namespace ErrorBudget

/-- New names for some of the variables. -/
abbrev Renaming : Type := NameMap String

namespace Renaming

/-- The name of a variable after the renaming. -/
def new (ρ : Renaming) (x : String) : String :=
  ρ.getD x x

/-- A renaming as a substitution. -/
def symbols {α : Type} (ρ : Renaming) : NameMap (Expr α) :=
  Std.ExtTreeMap.map (fun _ y => .symbol y) ρ

/-- What a renaming puts in the place of a variable is the variable with its new name. -/
theorem getD_symbols {α : Type} (ρ : Renaming) (x : String) :
    (ρ.symbols : NameMap (Expr α)).getD x (.symbol x) = .symbol (ρ.new x) := by
  rw [new, symbols, Std.ExtTreeMap.getD_eq_getD_getElem?, Std.ExtTreeMap.getD_eq_getD_getElem?,
    Std.ExtTreeMap.getElem?_map]
  cases ρ[x]? <;> rfl

end Renaming

/-- The point that assigns to every variable the number of its new name, if it has one. -/
def Point.along {α : Type} (q : Point α) (ρ : Renaming) : Point α :=
  (q.filter fun x _ => x ∉ ρ) ∪ ρ.filterMap fun _ y => q[y]?

/-- The value of a variable is taken from the variable with its new name. -/
theorem Point.getElem?_along {α : Type} (q : Point α) (ρ : Renaming) (x : String) :
    (q.along ρ)[x]? = q[ρ.new x]? := by
  rw [along, Std.ExtTreeMap.getElem?_union, Std.ExtTreeMap.getElem?_filterMap',
    Std.ExtTreeMap.getElem?_filter', Renaming.new, Std.ExtTreeMap.getD_eq_getD_getElem?]
  cases hx : ρ[x]? with
  | none =>
    have hmem : x ∉ ρ := NameMap.getElem?_eq_none_iff.mp hx
    cases hq : q[x]? <;> simp [hmem, hq]
  | some y =>
    have hmem : x ∈ ρ := NameMap.exists_getElem?_iff.mp ⟨y, hx⟩
    simp [hmem]

namespace Expr

variable {α : Type}

/-- An expression with other names for its variables. -/
def renamed (ρ : Renaming) (e : Expr α) : Expr α :=
  e.substitute ρ.symbols

variable {ρ : Renaming} {x : String} {e u v u' v' : Expr α}

section Constructors

/-- A renaming leaves literals. -/
@[simp] theorem renamed_number (c : α) : (number c).renamed ρ = number c := rfl

/-- A renaming leaves constants. -/
@[simp] theorem renamed_constant (c : Constant) :
    (constant c : Expr α).renamed ρ = constant c := rfl

/-- A renaming gives a variable its new name. -/
@[simp] theorem renamed_symbol (y : String) :
    (symbol y : Expr α).renamed ρ = symbol (ρ.new y) :=
  ρ.getD_symbols y

/-- A renaming goes into the argument of a call. -/
@[simp] theorem renamed_call (f : Func) : (call f u).renamed ρ = call f (u.renamed ρ) := rfl

/-- A renaming goes into both terms of a sum. -/
@[simp] theorem renamed_add : (add u v).renamed ρ = add (u.renamed ρ) (v.renamed ρ) := rfl

/-- A renaming goes into both terms of a difference. -/
@[simp] theorem renamed_sub : (sub u v).renamed ρ = sub (u.renamed ρ) (v.renamed ρ) := rfl

/-- A renaming goes into both factors of a product. -/
@[simp] theorem renamed_mul : (mul u v).renamed ρ = mul (u.renamed ρ) (v.renamed ρ) := rfl

/-- A renaming goes into both parts of a quotient. -/
@[simp] theorem renamed_div : (div u v).renamed ρ = div (u.renamed ρ) (v.renamed ρ) := rfl

/-- A renaming goes into both parts of a power. -/
@[simp] theorem renamed_pow : (pow u v).renamed ρ = pow (u.renamed ρ) (v.renamed ρ) := rfl

/-- A renamed expression is a literal exactly if the expression is. -/
theorem number?_renamed : (e.renamed ρ).number? = e.number? := by
  cases e <;> simp [number?]

end Constructors

/-- A variable occurs under its new name, if no other variable has got that name. -/
theorem contains_renamed (hx : ∀ y, e.contains y = true → ρ.new y = ρ.new x → y = x) :
    (e.renamed ρ).contains (ρ.new x) = e.contains x := by
  rw [Bool.eq_iff_iff, renamed, contains_substitute]
  simp only [Renaming.getD_symbols, contains, beq_iff_eq]
  constructor
  · rintro ⟨y, hy, hname⟩
    exact hx y hy hname ▸ hy
  · exact fun h => ⟨x, h, rfl⟩

section Rules

variable [Scalar α]

/-- A renamed expression is dropped as a term exactly if the expression is. -/
@[simp] theorem isNegligible_renamed : (e.renamed ρ).isNegligible = e.isNegligible := by
  cases e <;> simp [isNegligible]

/-- A renamed expression is dropped as a factor exactly if the expression is. -/
@[simp] theorem isNearOne_renamed : (e.renamed ρ).isNearOne = e.isNearOne := by
  cases e <;> simp [isNearOne]

/-- A renamed expression is a given literal exactly if the expression is. -/
@[simp] theorem isLiteral_renamed (c : α) : (e.renamed ρ).isLiteral c = e.isLiteral c := by
  cases e <;> simp [isLiteral]

/-- To rename a negative is to negate the renamed expression. -/
theorem renamed_negate : (negate u).renamed ρ = negate (u.renamed ρ) := by
  cases u <;> simp [negate]

/-- To rename a sum is to add the renamed terms; the same terms are dropped. -/
theorem renamed_sum : (sum u v).renamed ρ = sum (u.renamed ρ) (v.renamed ρ) := by
  rw [sum, sum, isNegligible_renamed, isNegligible_renamed]
  split_ifs <;> rfl

/-- To rename a difference is to subtract the renamed terms; the same terms are dropped. -/
theorem renamed_difference :
    (difference u v).renamed ρ = difference (u.renamed ρ) (v.renamed ρ) := by
  rw [difference, difference, isNegligible_renamed, isNegligible_renamed]
  split_ifs
  · rfl
  · exact renamed_negate
  · rfl

/-- To rename a product is to multiply the renamed factors; the same factors are dropped. -/
theorem renamed_product : (product u v).renamed ρ = product (u.renamed ρ) (v.renamed ρ) := by
  rw [product, product, isNegligible_renamed, isNegligible_renamed, isNearOne_renamed,
    isNearOne_renamed]
  split_ifs <;> rfl

/-- To rename a scaled product is to scale the renamed factors. -/
theorem renamed_scaled : (scaled u v).renamed ρ = scaled (u.renamed ρ) (v.renamed ρ) := by
  simp only [scaled, isLiteral_renamed]
  split_ifs <;> rfl

/-- To rename a quotient is to divide the renamed parts. -/
theorem renamed_quotient : (quotient u v).renamed ρ = quotient (u.renamed ρ) (v.renamed ρ) := by
  rw [quotient, quotient, isNegligible_renamed]
  split_ifs <;> rfl

/-- A chain rule on renamed expressions gives the renamed derivative. -/
theorem renamed_chain (f : Func) :
    (chain f u u').renamed ρ = chain f (u.renamed ρ) (u'.renamed ρ) := by
  cases f with
  | acos => rw [chain, chain, renamed_quotient, renamed_negate]; rfl
  | sign => rfl
  | asin | atan | asinh | acosh | atanh | log | ln | sqrt => exact renamed_quotient
  | _ => exact renamed_scaled

/-- The quotient rule on renamed expressions gives the renamed derivative. -/
theorem renamed_quotientRule : (quotientRule u v u' v').renamed ρ =
    quotientRule (u.renamed ρ) (v.renamed ρ) (u'.renamed ρ) (v'.renamed ρ) := by
  simp only [quotientRule, ← renamed_product, isNegligible_renamed, isNearOne_renamed]
  split_ifs
  · rfl
  · rfl
  · rfl
  · rw [← renamed_negate]
    rfl
  · rfl

/-- To rename a power with its exponent lowered is to lower the renamed exponent. -/
theorem renamed_lowered : (lowered u v).renamed ρ = lowered (u.renamed ρ) (v.renamed ρ) := by
  cases v with
  | number n =>
    rw [renamed_number, lowered, lowered]
    split_ifs <;> rfl
  | symbol y => simp [lowered, one]
  | _ => rfl

/-- The power rule on renamed expressions gives the renamed derivative. -/
theorem renamed_powerRule :
    (powerRule u v u').renamed ρ = powerRule (u.renamed ρ) (v.renamed ρ) (u'.renamed ρ) := by
  simp only [powerRule, ← renamed_lowered, ← renamed_product, isNegligible_renamed,
    isLiteral_renamed]
  split_ifs <;> rfl

/-- The rule for varying exponents on renamed expressions gives the renamed derivative. -/
theorem renamed_exponentRule : (exponentRule u v u' v').renamed ρ =
    exponentRule (u.renamed ρ) (v.renamed ρ) (u'.renamed ρ) (v'.renamed ρ) := by
  have hright : (if u'.isNegligible then zero else product v (div u' u)).renamed ρ =
      if (u'.renamed ρ).isNegligible then zero
      else product (v.renamed ρ) (div (u'.renamed ρ) (u.renamed ρ)) := by
    rw [isNegligible_renamed]
    split_ifs
    · rfl
    · exact renamed_product
  simp only [exponentRule]
  rw [renamed_product, renamed_sum, renamed_product, hright]
  rfl

/-- The derivative of a renamed expression is the renamed derivative. -/
theorem derive_renamed_eq (hx : ∀ y, e.contains y = true → ρ.new y = ρ.new x → y = x) :
    (e.renamed ρ).derive (ρ.new x) = (e.derive x).renamed ρ := by
  induction e with
  | number _ | constant _ => rfl
  | symbol y =>
    have hsame : (y == x) = (ρ.new y == ρ.new x) := by
      rw [Bool.eq_iff_iff, beq_iff_eq, beq_iff_eq]
      exact ⟨congrArg ρ.new, hx y (by simp [contains])⟩
    rw [renamed_symbol, derive, derive, hsame]
    split_ifs <;> rfl
  | call f u ih =>
    have hcontains : (u.renamed ρ).contains (ρ.new x) = u.contains x := contains_renamed hx
    rw [renamed_call, derive, derive, hcontains, ih hx, ← renamed_chain]
    split_ifs <;> rfl
  | add u v ihu ihv =>
    rw [renamed_add, derive, derive, ihu fun y hy => hx y (by simp [contains, hy]),
      ihv fun y hy => hx y (by simp [contains, hy]), renamed_sum]
  | sub u v ihu ihv =>
    rw [renamed_sub, derive, derive, ihu fun y hy => hx y (by simp [contains, hy]),
      ihv fun y hy => hx y (by simp [contains, hy]), renamed_difference]
  | mul u v ihu ihv =>
    rw [renamed_mul, derive, derive, ihu fun y hy => hx y (by simp [contains, hy]),
      ihv fun y hy => hx y (by simp [contains, hy]), renamed_sum, renamed_product, renamed_product]
  | div u v ihu ihv =>
    rw [renamed_div, derive, derive, ihu fun y hy => hx y (by simp [contains, hy]),
      ihv fun y hy => hx y (by simp [contains, hy]), renamed_quotientRule]
  | pow u v ihu ihv =>
    have hv (y : String) (hy : v.contains y = true) : ρ.new y = ρ.new x → y = x :=
      hx y (by simp [contains, hy])
    rw [renamed_pow, derive, derive, contains_renamed hv,
      ihu fun y hy => hx y (by simp [contains, hy]), ihv hv, ← renamed_exponentRule,
      ← renamed_powerRule]
    split_ifs <;> rfl

end Rules

section Values

/-- The variables of a renamed expression are those of the expression with their new names. -/
theorem leavesIn_renamed {S : String → Prop} {C : Constant → Prop} :
    (e.renamed ρ).LeavesIn S C ↔ e.LeavesIn (fun y => S (ρ.new y)) C := by
  induction e with
  | symbol y => rw [renamed_symbol, LeavesIn, LeavesIn]
  | number _ | constant _ => rfl
  | call f u ih => exact ih
  | add u v ihu ihv | sub u v ihu ihv | mul u v ihu ihv | div u v ihu ihv | pow u v ihu ihv =>
    exact and_congr ihu ihv

/-- A renamed expression resolves where the expression does along the renaming. -/
theorem resolves_renamed {q : Point α} : (e.renamed ρ).Resolves q ↔ e.Resolves (q.along ρ) := by
  have hmem (y : String) : ρ.new y ∈ q ↔ y ∈ q.along ρ := by
    rw [← NameMap.exists_getElem?_iff, ← NameMap.exists_getElem?_iff, Point.getElem?_along]
  simp only [Resolves, leavesIn_renamed, hmem]

/-- A renamed expression has the value of the expression along the renaming. -/
theorem denote_renamed [Scalar α] {q : Point α} :
    (e.renamed ρ).denote q = e.denote (q.along ρ) := by
  induction e with
  | number _ | constant _ => rfl
  | symbol y =>
    rw [renamed_symbol, denote_symbol, denote_symbol, Std.ExtTreeMap.getD_eq_getD_getElem?,
      Std.ExtTreeMap.getD_eq_getD_getElem?, Point.getElem?_along]
  | call f u ih => rw [renamed_call, denote_call, denote_call, ih]
  | add u v ihu ihv | sub u v ihu ihv | mul u v ihu ihv | div u v ihu ihv =>
    rw [denote, ← ihu, ← ihv]
    rfl
  | pow u v ihu ihv =>
    -- A literal exponent stays a literal, and no other exponent becomes one.
    cases hliteral : v.number? with
    | some n =>
      cases v with
      | number c => rw [renamed_pow, renamed_number, denote, denote, ihu]
      | _ => simp [number?] at hliteral
    | none =>
      have hkept : (v.renamed ρ).number? = none := number?_renamed.trans hliteral
      rw [renamed_pow, denote_pow_of_number? hkept, denote_pow_of_number? hliteral, ihu, ihv]

end Values

/-- Differentiation and evaluation commute with a renaming that gives no other variable of the
expression the new name of `x`; one that gives different names to these variables does so. The
derivatives are the same expression. The values at a point and at the point that is looked up under
the new names are the same number, or there are none at both. -/
theorem derive_renamed [Scalar α]
    (hx : ∀ y ∈ e.vars, ρ.new y = ρ.new x → y = x) :
    (e.renamed ρ).derive (ρ.new x) = (e.derive x).renamed ρ ∧
      ∀ q : Point α, ((e.renamed ρ).evaluate q).toOption = (e.evaluate (q.along ρ)).toOption := by
  refine ⟨derive_renamed_eq fun y hy => hx y ((contains_iff_mem_vars y e).mp hy), fun q => ?_⟩
  apply Option.ext
  intro a
  rw [toOption_eq_some_iff, toOption_eq_some_iff, evaluate_eq_ok_iff, evaluate_eq_ok_iff,
    resolves_renamed, denote_renamed]

/-- In `x * sin y - y^x` the variables `x` and `y` are exchanged. The point has numbers for both of
them, and a third one that does not occur. -/
theorem derive_renamed_exchange :
    let e : Expr Float :=
      sub (mul (symbol "x") (call .sin (symbol "y"))) (pow (symbol "y") (symbol "x"))
    let ρ : Renaming := NameMap.ofEntries [("x", "y"), ("y", "x")]
    let q : Point Float := NameMap.ofEntries [("x", 2), ("y", 3), ("z", 5)]
    (∀ y ∈ e.vars, ρ.new y = ρ.new "x" → y = "x") ∧
    (e.renamed ρ).derive "y" = (e.derive "x").renamed ρ ∧
    ((e.renamed ρ).evaluate q).toOption = (e.evaluate (q.along ρ)).toOption := by
  intro e ρ q
  have hx : ∀ y ∈ e.vars, ρ.new y = ρ.new "x" → y = "x" := by
    have hlist : ∀ y ∈ e.vars.toList, ρ.new y = ρ.new "x" → y = "x" := by decide +kernel
    exact fun y hy => hlist y (Std.ExtTreeSet.mem_toList.mpr hy)
  have hnew : ρ.new "x" = "y" := by decide +kernel
  obtain ⟨hderive, hevaluate⟩ := derive_renamed hx
  exact ⟨hx, hnew ▸ hderive, hevaluate q⟩

end Expr

end ErrorBudget
