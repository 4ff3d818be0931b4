import ErrorBudget.Proofs.Printing.Number

/-!
# What is printed is read back

The text of an expression is read as an expression with the same variables and the same value
(`read_print`). It need not be the same expression: reading groups sums and products to the left and
turns signs into factors of minus one.

Every expression is written as a part of the grammar (`part`), weaker or stronger by its root. Where
an operand must belong to a stronger part than its own, it stands in parentheses; there is one lemma
for each place of an operand.
-/

set_option autoImplicit false

namespace ErrorBudget

universe r

namespace Expr

open ErrorBudget.Parser

/-- The part of the grammar that an expression is written as. -/
def part : Expr Float → Tokens Float → Expr Float → Prop
  | add _ _ | sub _ _ => Derives .sum
  | mul _ _ => Factors
  | div _ _ => Derives .product
  | pow _ _ => Derives .power
  | number x => if x < 0 then Factors else Derives .atom
  | symbol _ | constant _ | call _ _ => Derives .atom

/-- A name that is read as a variable. -/
def IsVariableName (name : String) : Prop :=
  IsIdentifier name ∧ Constant.ofName? name = none

/-- A text that spells an expression, which is proper, as its part of the grammar. -/
structure IsText (R : Type*) [CommRing R] (text : String) (e : Expr Float) : Prop where
  proper : e.IsProper
  spells : Spells R e.part text.toList e

variable {R : Type*} [CommRing R] {e u v : Expr Float} {text left right : String}

section Parts

/-- A literal below zero is written as a factor with a sign. -/
theorem part_of_neg {x : Float} (hneg : x < 0) : part (number x) = Factors :=
  if_pos hneg

/-- A literal that is not below zero is written as an operand. -/
theorem part_of_not_neg {x : Float} (hneg : ¬x < 0) : part (number x) = Derives .atom :=
  if_neg hneg

/-- What is not put in parentheses as a factor is written as factors. -/
theorem IsText.factors (h : IsText R text e) (hloose : e.isLoose = false) :
    Spells R Factors text.toList e := by
  obtain ⟨he, h⟩ := h
  cases e with
  | add u v | sub u v | div u v => contradiction
  | mul u v => exact h
  | pow u v => exact Spells.factors (l := .power) h (by decide) he
  | symbol name | constant c | call f u => exact Spells.factors (l := .atom) h (by decide) he
  | number x =>
    by_cases hneg : x < 0
    · rwa [part_of_neg hneg] at h
    · rw [part_of_not_neg hneg] at h
      exact h.factors (by decide) he

/-- What is no sum is written as a product. -/
theorem IsText.product (h : IsText R text e) (hsum : e.isSum = false) :
    Spells R (Derives .product) text.toList e := by
  cases e with
  | add u v | sub u v => contradiction
  | div u v => exact h.spells
  | _ => exact (h.factors rfl).imp fun _ _ _ hw => hw.product

/-- Everything is written as a sum. -/
theorem IsText.sum (h : IsText R text e) : Spells R (Derives .sum) text.toList e := by
  cases e with
  | add u v | sub u v => exact h.spells
  | _ => exact (h.product rfl).sum

/-- A literal that is not below zero is an operand. -/
theorem IsText.atom_of_nonneg (h : IsText R text e) (hnonneg : e.isNonnegativeLiteral = true) :
    Spells R (Derives .atom) text.toList e := by
  cases e with
  | number x =>
    have hneg : ¬x < 0 := Double.not_lt_zero_of_le (of_decide_eq_true hnonneg)
    have hspells := h.spells
    rwa [part_of_not_neg hneg] at hspells
  | _ => contradiction

end Parts

section Operands

/-- A text in parentheses is a part of every kind that operands are parts of, and any other text has
to be one itself. -/
theorem IsText.grouped {whole : Tokens Float → Expr Float → Prop} {b : Bool}
    (h : IsText R text e) (hatom : ∀ cs, Spells R (Derives .atom) cs e → Spells R whole cs e)
    (hbare : b = false → Spells R whole text.toList e) :
    Spells R whole (grouped b text).toList e := by
  cases b with
  | false => exact hbare rfl
  | true =>
    have hparentheses := hatom _ h.sum.parentheses
    simpa [Expr.grouped] using hparentheses

/-- The text of a factor, in parentheses where they are needed. -/
theorem IsText.factor (h : IsText R text e) :
    Spells R Factors (Expr.grouped e.isLoose text).toList e :=
  h.grouped (fun _ hatom => hatom.factors (by decide) h.proper) h.factors

/-- The text of a term of a product, in parentheses where they are needed. -/
theorem IsText.term (h : IsText R text e) :
    Spells R (Derives .product) (Expr.grouped e.isSum text).toList e :=
  h.grouped (fun _ hatom => hatom.product (by decide)) h.product

/-- The text of a denominator, in parentheses where they are needed. -/
theorem IsText.denominator (h : IsText R text e) :
    Spells R (Derives .unary) (Expr.grouped (!e.isTightDenominator) text).toList e := by
  refine h.grouped (fun _ hatom => hatom.unary (by decide)) ?_
  intro htight
  rw [Bool.not_eq_false'] at htight
  cases e with
  | add u v | sub u v | mul u v | div u v => contradiction
  | pow u v => exact Spells.unary (l := .power) h.spells (by decide)
  | symbol name | constant c | call f u => exact Spells.unary (l := .atom) h.spells (by decide)
  | number x => exact (h.atom_of_nonneg htight).unary (by decide)

/-- The text of a base, in parentheses where they are needed. -/
theorem IsText.base (h : IsText R text e) :
    Spells R (Derives .atom) (Expr.grouped e.isLooseBase text).toList e := by
  refine h.grouped (fun _ hatom => hatom) ?_
  intro hloose
  have hspells := h.spells
  cases e with
  | add u v | sub u v | mul u v | div u v | pow u v => contradiction
  | symbol name | constant c | call f u => exact hspells
  | number x =>
    have hneg : ¬x < 0 := of_decide_eq_false hloose
    rwa [part_of_not_neg hneg] at hspells

/-- The text of an exponent, in parentheses where they are needed. -/
theorem IsText.exponent (h : IsText R text e) :
    Spells R (Derives .atom) (Expr.grouped (!e.isTightExponent) text).toList e := by
  refine h.grouped (fun _ hatom => hatom) ?_
  intro htight
  rw [Bool.not_eq_false'] at htight
  cases e with
  | add u v | sub u v | mul u v | div u v | pow u v | call f u => contradiction
  | symbol name | constant c => exact h.spells
  | number x => exact h.atom_of_nonneg htight

end Operands

section Printed

/-- What counts as the literal minus one is this literal. -/
theorem eq_neg_one_of_isLiteral (h : u.isLiteral (-1) = true) : u = number (-1) := by
  cases u with
  | number x => exact congrArg number (Double.eq_neg_one_of_beq h)
  | _ => contradiction

/-- The text of a literal that can be written spells it. -/
theorem isText_number {x : Float} (hx : IsWritable x) :
    IsText R (printNumber x) (number x) := by
  refine ⟨hx.isNumber, ?_⟩
  by_cases hneg : x < 0
  · rw [part_of_neg hneg]
    exact spells_printNumber_of_neg hx hneg
  · rw [part_of_not_neg hneg]
    exact spells_printNumber hx hneg

/-- A product is written by its factors, the first of which may be a sign. -/
theorem isText_product (hu : IsText R left u) (hv : IsText R right v) :
    IsText R (printProduct u v left right) (mul u v) := by
  refine ⟨trivial, ?_⟩
  unfold printProduct
  by_cases hsign : u.isLiteral (-1) = true
  · obtain rfl := eq_neg_one_of_isLiteral hsign
    rw [if_pos hsign, String.toList_append]
    exact hv.factor.negate
  · have hproduct := hu.factor.mul hv.factor
    rw [if_neg hsign]
    simpa [part, String.toList_append, Token.spacedSymbol, Operator.symbol] using hproduct

/-- The text of a sum spells it. -/
theorem isText_sum (hu : IsText R left u) (hv : IsText R right v) :
    IsText R (left ++ " + " ++ right) (add u v) := by
  have hsum := hu.sum.add hv.sum
  refine ⟨trivial, ?_⟩
  simpa [part, String.toList_append, Token.spacedSymbol, Operator.symbol] using hsum

/-- The text of an expression spells it. -/
theorem isText_print (hnames : e.LeavesIn IsVariableName fun _ => True)
    (hliterals : e.LiteralsIn IsWritable) : IsText R e.print e := by
  induction e using Expr.print.induct with
  | case1 x => exact isText_number hliterals
  | case2 name => exact ⟨trivial, Spells.symbol hnames.1 hnames.2⟩
  | case3 c => exact ⟨trivial, Spells.constant c⟩
  | case4 f u ih =>
    have hu := ih hnames hliterals
    refine ⟨trivial, ?_⟩
    simpa [part, print, String.toList_append] using hu.sum.call f
  | case5 u w t hsign ihu iht =>
    -- The difference that is written agrees with the sum.
    have hu := ihu hnames.1 hliterals.1
    have ht := iht hnames.2.2 hliterals.2.2
    have hterm := ht.factor.imp fun _ _ _ hw => hw.product
    obtain rfl := eq_neg_one_of_isLiteral hsign
    have hsum := (hu.sum.sub hterm).of_agrees (.sub_eq_add u t)
    refine ⟨trivial, ?_⟩
    simp only [print, if_pos hsign]
    simpa [part, String.toList_append, Token.spacedSymbol, Operator.symbol] using hsum
  | case6 u w t hsign ihu ihw iht =>
    have hu := ihu hnames.1 hliterals.1
    have hproduct := isText_product (ihw hnames.2.1 hliterals.2.1) (iht hnames.2.2 hliterals.2.2)
    simp only [print, if_neg hsign]
    exact isText_sum hu hproduct
  | case7 u v hmul ihu ihv =>
    have hprint : (add u v).print = u.print ++ " + " ++ v.print := by
      cases v with
      | mul w t => exact absurd rfl (hmul w t)
      | _ => rfl
    rw [hprint]
    exact isText_sum (ihu hnames.1 hliterals.1) (ihv hnames.2 hliterals.2)
  | case8 u v ihu ihv =>
    have hu := ihu hnames.1 hliterals.1
    have hv := ihv hnames.2 hliterals.2
    refine ⟨trivial, ?_⟩
    simpa [part, print, String.toList_append, Token.spacedSymbol, Operator.symbol]
      using hu.sum.sub hv.term
  | case9 u v ihu ihv =>
    exact isText_product (ihu hnames.1 hliterals.1) (ihv hnames.2 hliterals.2)
  | case10 u v ihu ihv =>
    have hu := ihu hnames.1 hliterals.1
    have hv := ihv hnames.2 hliterals.2
    refine ⟨trivial, ?_⟩
    simpa [part, print, String.toList_append, Token.spacedSymbol, Operator.symbol]
      using hu.term.div hv.denominator
  | case11 u v ihu ihv =>
    have hu := ihu hnames.1 hliterals.1
    have hv := ihv hnames.2 hliterals.2
    have hpower := hu.base.pow (hv.exponent.unary (by decide))
    refine ⟨trivial, ?_⟩
    simpa [part, print, String.toList_append] using hpower

end Printed

/-- What is printed is read as an expression with the same variables, and with the same value
whatever literals, names, quotients, powers and functions mean. -/
theorem read_print (hnames : e.LeavesIn IsVariableName fun _ => True)
    (hliterals : e.LiteralsIn IsWritable) :
    ∃ w, read 0 e.print.toList = .ok w ∧ w.vars = e.vars ∧
      ∀ (R : Type r) [CommRing R] (I : Interpretation R), I.value w = I.value e := by
  have hread (R : Type r) [CommRing R] : ∃ w, read 0 e.print.toList = .ok w ∧ Agrees R w e :=
    (isText_print hnames hliterals).sum.exists_read_eq_ok 0
  obtain ⟨w, hw, hagrees⟩ := hread PUnit
  refine ⟨w, hw, hagrees.vars_eq, ?_⟩
  intro R _ I
  obtain ⟨w', hw', hagrees'⟩ := hread R
  obtain rfl : w = w' := Except.ok.inj (hw.symm.trans hw')
  exact hagrees'.value I

/-- An expression with signs in front of a sum, a power and a literal is read back with the same
value. -/
theorem read_print_signs :
    let e : Expr Float := sub
      (add (mul (number (-0.5)) (symbol "x"))
        (mul (number (-1)) (div (symbol "y") (add (number 2.5) (mul (symbol "x") (symbol "y"))))))
      (pow (call .sin (number (1 / 0))) (number (-3)))
    e.print = "-0.5 * x - (y / (2.5 + x * y)) - sin(oo)^(-3)" ∧
      e.LeavesIn IsVariableName (fun _ => True) ∧ e.LiteralsIn IsWritable ∧
      ∃ w, read 0 e.print.toList = .ok w ∧ w.vars = e.vars ∧
        ∀ (R : Type r) [CommRing R] (I : Interpretation R), I.value w = I.value e := by
  intro e
  have hx : IsVariableName "x" := ⟨⟨'x', [], rfl, rfl, rfl⟩, by decide⟩
  have hy : IsVariableName "y" := ⟨⟨'y', [], rfl, rfl, rfl⟩, by decide⟩
  have hnames : e.LeavesIn IsVariableName (fun _ => True) :=
    ⟨⟨⟨trivial, hx⟩, trivial, hy, trivial, hx, hy⟩, trivial, trivial⟩
  have hhalf : IsWritable (-0.5) := ⟨by decide +kernel, fun _ =>
    ⟨⟨['0'], some ['5'], none⟩, ⟨rfl, rfl, rfl⟩, by decide +kernel, 5, -1, rfl, rfl⟩⟩
  have hone : IsWritable (-1) := ⟨by decide +kernel, fun _ =>
    ⟨⟨['1'], none, none⟩, ⟨rfl, rfl, rfl⟩, by decide +kernel, 1, 0, rfl, rfl⟩⟩
  have hfraction : IsWritable 2.5 := ⟨by decide +kernel, fun _ =>
    ⟨⟨['2'], some ['5'], none⟩, ⟨rfl, rfl, rfl⟩, by decide +kernel, 25, -1, rfl, rfl⟩⟩
  have hinfinity : IsWritable (1 / 0) := ⟨by decide +kernel, fun hfinite =>
    absurd hfinite (by decide +kernel)⟩
  have hthree : IsWritable (-3) := ⟨by decide +kernel, fun _ =>
    ⟨⟨['3'], none, none⟩, ⟨rfl, rfl, rfl⟩, by decide +kernel, 3, 0, rfl, rfl⟩⟩
  have hliterals : e.LiteralsIn IsWritable :=
    ⟨⟨⟨hhalf, trivial⟩, hone, trivial, hfraction, trivial, trivial⟩, hinfinity, hthree⟩
  exact ⟨by decide +kernel, hnames, hliterals, read_print hnames hliterals⟩

end Expr

end ErrorBudget
