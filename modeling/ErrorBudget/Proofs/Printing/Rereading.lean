import ErrorBudget.Proofs.Parser.Names

/-!
# What a text is read as

The text of an expression need not be read as the same expression. Sums and products are written
without parentheses however they are grouped, and read with their terms and factors grouped to the
left; a sign that multiplies a product goes to the first factor, and a negated product that is added
is subtracted. `Expr.reread` is the expression that is read (`read_print_eq`).

So the text of an expression can exceed the limits that the expression keeps, and floating-point
numbers can give it another value. Both is excluded for an expression that is settled
(`Expr.IsSettled`): its text is read as the expression itself.
-/

set_option autoImplicit false

namespace ErrorBudget

namespace Expr

section Definitions

/-- Products join their factors to those in front of them. -/
def isProduct {α : Type} : Expr α → Bool
  | mul _ _ => true
  | _ => false

/-- What the text of a literal without a sign is read as: infinity is a constant. -/
def rereadMagnitude (x : Float) : Expr Float :=
  if x.isFinite then number x else constant .infinity

/-- What the text of a literal is read as. No sign is written for a zero. -/
def rereadNumber (x : Float) : Expr Float :=
  if x < 0 then (rereadMagnitude x.abs).negate else rereadMagnitude x.abs

/-- Something in front takes the first part of an expression whose text goes on behind it, and all
of any other expression. -/
def spliced (goesOn : Bool) (first : Expr Float → Expr Float)
    (reading : (Expr Float → Expr Float) → Expr Float) : Expr Float :=
  if goesOn then reading first else first (reading id)

/-- What the text of an expression is read as, where `first` is what becomes of the first term of a
sum, of the first factor of a product, and of any other expression as a whole. -/
def rereadWith : Expr Float → (Expr Float → Expr Float) → Expr Float
  | number x, first => first (rereadNumber x)
  | symbol name, first => first (symbol name)
  | constant c, first => first (constant c)
  | call f u, first => first (call f (u.rereadWith id))
  | add u v, first =>
    let left := spliced u.isSum first u.rereadWith
    match v with
    | mul w t =>
      if w.isLiteral (-1) then sub left (t.rereadWith id)
      else add left ((mul w t).rereadWith id)
    | v => spliced v.isSum (add left) v.rereadWith
  | sub u v, first => sub (spliced u.isSum first u.rereadWith) (v.rereadWith id)
  | mul u v, first =>
    if u.isLiteral (-1) then spliced v.isProduct (fun t => first t.negate) v.rereadWith
    else spliced v.isProduct (mul (spliced u.isProduct first u.rereadWith)) v.rereadWith
  | div u v, first => first (div (u.rereadWith id) (v.rereadWith id))
  | pow u v, first => first (pow (u.rereadWith id) (v.rereadWith id))

/-- What the text of an expression is read as. -/
def reread (e : Expr Float) : Expr Float := e.rereadWith id

/-- An expression whose text is read as itself: sums and products are grouped to the left, signs
stand at single factors that are no literals, nothing is added that could be subtracted, and
literals are finite and not the negative zero. -/
def IsSettled : Expr Float → Prop
  | number x => x.isFinite = true ∧ x ≠ -0
  | symbol _ | constant _ => True
  | call _ u => u.IsSettled
  | add u v => u.IsSettled ∧ v.IsSettled ∧ v.isSum = false ∧ ∀ t, v ≠ mul (number (-1)) t
  | mul u v =>
    u.IsSettled ∧ v.IsSettled ∧ v.isProduct = false ∧
      (u = number (-1) → ∀ x, v ≠ number x)
  | sub u v | div u v | pow u v => u.IsSettled ∧ v.IsSettled

end Definitions

open ErrorBudget.Token ErrorBudget.Parser

variable {e u v : Expr Float} {text left right : String}

/-- With nothing in front an expression is read as it is. -/
theorem spliced_id (goesOn : Bool) (reading : (Expr Float → Expr Float) → Expr Float) :
    spliced goesOn id reading = reading id := by
  cases goesOn <;> rfl

section Fronts

variable {front ts : Tokens Float} {first : Expr Float → Expr Float} {t : Expr Float}

/-- Behind some tokens, a term becomes part of a sum. -/
def TakesTerm (front : Tokens Float) (first : Expr Float → Expr Float) : Prop :=
  ∀ ts t, Derives .product ts t → Derives .sum (front ++ ts) (first t)

/-- Behind some tokens, a factor becomes part of a product. -/
def TakesFactor (front : Tokens Float) (first : Expr Float → Expr Float) : Prop :=
  ∀ ts t, Derives .unary ts t → Derives .product (front ++ ts) (first t)

/-- With nothing in front a term becomes a sum of its own. -/
theorem takesTerm_nil : TakesTerm [] id :=
  fun _ _ h => .term h

/-- With nothing in front a factor becomes a product of its own. -/
theorem takesFactor_nil : TakesFactor [] id :=
  fun _ _ h => .factor h

/-- Behind a plus sign a term is added to the sum in front. -/
theorem takesTerm_add (h : Derives .sum ts u) (s : Span) :
    TakesTerm (ts ++ [⟨.operator .add, s⟩]) (add u) := by
  intro ts' t ht
  simpa using Derives.add s h ht

/-- Behind a multiplication sign a factor multiplies the product in front. -/
theorem takesFactor_mul (h : Derives .product ts u) (s : Span) :
    TakesFactor (ts ++ [⟨.operator .mul, s⟩]) (mul u) := by
  intro ts' t ht
  simpa using Derives.mul s h ht

/-- A minus sign between the product in front and a factor goes to the factor. -/
theorem TakesFactor.negate (h : TakesFactor front first) (s : Span) :
    TakesFactor (front ++ [⟨.operator .sub, s⟩]) (fun t => first t.negate) := by
  intro ts t ht
  simpa using h _ _ (derives_negate s ht)

end Fronts

section Parts

variable {front ts : Tokens Float} {first : Expr Float → Expr Float}

/-- The tokens of the text of an expression, as the part of the grammar that they are: terms of a
sum, factors of a product, or tokens of a layer. -/
def IsPart (e : Expr Float) (ts : Tokens Float) : Prop :=
  match e with
  | add _ _ | sub _ _ =>
    ∀ front first, TakesTerm front first → Derives .sum (front ++ ts) (e.rereadWith first)
  | mul _ _ =>
    ∀ front first, TakesFactor front first → Derives .product (front ++ ts) (e.rereadWith first)
  | div _ _ => Derives .product ts e.reread
  | pow _ _ => Derives .power ts e.reread
  | number x => if x < 0 then Derives .unary ts e.reread else Derives .atom ts e.reread
  | symbol _ | constant _ | call _ _ => Derives .atom ts e.reread

/-- A literal below zero has a sign in front, any other is an operand. -/
theorem isPart_of_neg {x : Float} (hneg : x < 0) :
    IsPart (number x) = (Derives .unary · (rereadMagnitude x.abs).negate) := by
  funext ts
  simp [IsPart, reread, rereadWith, rereadNumber, hneg]

/-- A literal that is not below zero is written as an operand. -/
theorem isPart_of_not_neg {x : Float} (hneg : ¬x < 0) :
    IsPart (number x) = (Derives .atom · (rereadMagnitude x.abs)) := by
  funext ts
  simp [IsPart, reread, rereadWith, rereadNumber, hneg]

/-- A literal that is not below zero is read as its magnitude. -/
theorem reread_of_not_neg {x : Float} (hneg : ¬x < 0) :
    (number x).reread = rereadMagnitude x.abs :=
  if_neg hneg

/-- A literal is an operand with at most one sign. -/
theorem IsPart.unary {x : Float} (h : IsPart (number x) ts) :
    Derives .unary ts (number x).reread := by
  by_cases hneg : x < 0
  · rw [isPart_of_neg hneg] at h
    rwa [reread, rereadWith, rereadNumber, if_pos hneg]
  · rw [isPart_of_not_neg hneg] at h
    rw [reread_of_not_neg hneg]
    exact h.unary (by decide)

/-- An expression that is not put in parentheses as a factor joins the product in front. -/
theorem IsPart.factors (h : IsPart e ts) (hloose : e.isLoose = false)
    (hfirst : TakesFactor front first) :
    Derives .product (front ++ ts) (spliced e.isProduct first e.rereadWith) := by
  cases e with
  | add u v | sub u v | div u v => contradiction
  | mul u v => exact h front first hfirst
  | pow u v => exact hfirst _ _ (.unsigned h)
  | symbol name | constant c | call f u => exact hfirst _ _ (.unsigned (.base h))
  | number x => exact hfirst _ _ h.unary

/-- An expression that is no sum is written as a product. -/
theorem IsPart.product (h : IsPart e ts) (hsum : e.isSum = false) :
    Derives .product ts e.reread := by
  cases e with
  | add u v | sub u v => contradiction
  | div u v => exact h
  | _ =>
    have hfactors := h.factors rfl takesFactor_nil
    rwa [spliced_id, List.nil_append] at hfactors

/-- An expression joins the sum in front as one term or several. -/
theorem IsPart.terms (h : IsPart e ts) (hfirst : TakesTerm front first) :
    Derives .sum (front ++ ts) (spliced e.isSum first e.rereadWith) := by
  cases e with
  | add u v | sub u v => exact h front first hfirst
  | _ => exact hfirst _ _ (h.product rfl)

/-- An expression is written as a sum. -/
theorem IsPart.sum (h : IsPart e ts) : Derives .sum ts e.reread := by
  have hterms := h.terms takesTerm_nil
  rwa [spliced_id, List.nil_append] at hterms

/-- A literal that is not below zero is an operand. -/
theorem IsPart.atom_of_nonneg (h : IsPart e ts) (hnonneg : e.isNonnegativeLiteral = true) :
    Derives .atom ts e.reread := by
  cases e with
  | number x =>
    have hneg : ¬x < 0 := Double.not_lt_zero_of_le (of_decide_eq_true hnonneg)
    rw [isPart_of_not_neg hneg] at h
    rwa [reread_of_not_neg hneg]
  | _ => contradiction

end Parts

section Texts

/-- A text that gives the tokens of an expression. -/
def Writes (text : String) (e : Expr Float) : Prop :=
  Gives (IsPart e) text.toList

/-- A text in parentheses is a part of every kind that operands are parts of, and any other text has
to be one itself. -/
theorem Writes.grouped {whole : Tokens Float → Prop} {b : Bool} (h : Writes text e)
    (hatom : b = true → ∀ ts, Derives .atom ts e.reread → whole ts)
    (hbare : b = false → ∀ ts, IsPart e ts → whole ts) :
    Gives whole (Expr.grouped b text).toList := by
  cases b with
  | false => exact h.imp (hbare rfl)
  | true =>
    have hparentheses : Gives whole (['('] ++ (text.toList ++ [')'])) :=
      Gives.enclosed h fun s ts s' hts => hatom rfl _ (.paren s s' hts.sum)
    simpa [Expr.grouped] using hparentheses

/-- The text of a factor, in parentheses where they are needed. -/
theorem Writes.factor (h : Writes text e) :
    Gives (fun ts => ∀ front first, TakesFactor front first →
      Derives .product (front ++ ts) (spliced e.isProduct first e.rereadWith))
      (Expr.grouped e.isLoose text).toList := by
  refine h.grouped ?_ fun hloose ts hts front first => hts.factors hloose
  intro hloose ts hts front first hfirst
  have hproduct : e.isProduct = false := by
    cases e <;> first | rfl | contradiction
  rw [hproduct]
  exact hfirst _ _ (.unsigned (.base hts))

/-- The text of a subtracted or divided term, in parentheses where they are needed. -/
theorem Writes.term (h : Writes text e) :
    Gives (Derives .product · e.reread) (Expr.grouped e.isSum text).toList :=
  h.grouped (fun _ _ hts => hts.product (by decide)) fun hsum _ hts => hts.product hsum

/-- Behind a minus sign, too, an operand of a product is one term. -/
theorem Writes.subtrahend (h : Writes text e) :
    Gives (Derives .product · e.reread) (Expr.grouped e.isLoose text).toList := by
  refine h.factor.imp fun ts hts => ?_
  have hproduct := hts [] id takesFactor_nil
  rwa [spliced_id, List.nil_append] at hproduct

/-- The text of a denominator, in parentheses where they are needed. -/
theorem Writes.denominator (h : Writes text e) :
    Gives (Derives .unary · e.reread) (Expr.grouped (!e.isTightDenominator) text).toList := by
  refine h.grouped (fun _ _ hts => hts.unary (by decide)) ?_
  intro htight ts hts
  rw [Bool.not_eq_false'] at htight
  cases e with
  | add u v | sub u v | mul u v | div u v => contradiction
  | pow u v => exact .unsigned hts
  | symbol name | constant c | call f u => exact .unsigned (.base hts)
  | number x => exact (hts.atom_of_nonneg htight).unary (by decide)

/-- The text of a base, in parentheses where they are needed. -/
theorem Writes.base (h : Writes text e) :
    Gives (Derives .atom · e.reread) (Expr.grouped e.isLooseBase text).toList := by
  refine h.grouped (fun _ _ hts => hts) ?_
  intro hloose ts hts
  cases e with
  | add u v | sub u v | mul u v | div u v | pow u v => contradiction
  | symbol name | constant c | call f u => exact hts
  | number x =>
    have hneg : ¬x < 0 := of_decide_eq_false hloose
    rw [isPart_of_not_neg hneg] at hts
    rwa [reread_of_not_neg hneg]

/-- The text of an exponent, in parentheses where they are needed. -/
theorem Writes.exponent (h : Writes text e) :
    Gives (Derives .atom · e.reread) (Expr.grouped (!e.isTightExponent) text).toList := by
  refine h.grouped (fun _ _ hts => hts) ?_
  intro htight ts hts
  rw [Bool.not_eq_false'] at htight
  cases e with
  | add u v | sub u v | mul u v | div u v | pow u v | call f u => contradiction
  | symbol name | constant c => exact hts
  | number x => exact hts.atom_of_nonneg htight

/-- A number that is its own magnitude is written without a sign. -/
theorem gives_rereadMagnitude {x : Float} (hx : IsWritable x) (habs : x = x.abs) :
    Gives (Derives .atom · (rereadMagnitude x)) (printNumber x).toList := by
  unfold rereadMagnitude
  by_cases hfinite : x.isFinite = true
  · rw [if_pos hfinite]
    exact gives_magnitude hx habs hfinite
  · obtain rfl := Double.eq_infinity_of_abs habs hx.isNumber hfinite
    have hprint : (printNumber (1 / 0 : Float)).toList = Constant.infinity.name.toList := by
      decide +kernel
    rw [if_neg hfinite, hprint]
    refine gives_identifier ⟨_, _, rfl, rfl, rfl⟩ fun s => ?_
    exact .constant s (Constant.ofName?_name .infinity)

/-- The text of a literal that can be written. -/
theorem writes_number {x : Float} (hx : IsWritable x) : Writes (printNumber x) (number x) := by
  rw [Writes]
  rcases Double.sign_cases hx.isNumber with ⟨hneg, habs⟩ | ⟨hneg, habs | hzero⟩
  · rw [isPart_of_neg hneg, printNumber_of_neg hneg, String.toList_append]
    exact (gives_rereadMagnitude hx.abs (Double.abs_abs x).symm).cons lexes_minus
      fun s ts hts => derives_negate s (hts.unary (by decide))
  · rw [isPart_of_not_neg hneg, ← habs]
    exact gives_rereadMagnitude hx habs
  · have hprint : printNumber x = printNumber x.abs := by
      rw [hzero]
      decide +kernel
    rw [isPart_of_not_neg hneg, hprint]
    exact gives_rereadMagnitude hx.abs (Double.abs_abs x).symm

/-- The text of a name that is not called. -/
theorem writes_name {name : String} (hname : IsIdentifier name) (he : nameExpr name = e)
    (hpart : ∀ ts, Derives .atom ts e → IsPart e ts) : Writes name e :=
  gives_identifier hname fun s => hpart _ (he ▸ derives_nameExpr name s)

/-- The text of a call. -/
theorem writes_call (f : Func) (h : Writes text u) :
    Writes (f.name ++ "(" ++ text ++ ")") (call f u) := by
  have hname : IsIdentifier f.name := by
    cases f <;> exact ⟨_, _, rfl, rfl, rfl⟩
  have hcall : Gives (IsPart (call f u)) (f.name.toList ++ (['('] ++ (text.toList ++ [')']))) :=
    Gives.called hname h fun s s' _ s'' hts => .call s s' s'' (Func.ofName?_name f) hts.sum
  simpa [Writes, String.toList_append] using hcall

/-- A product is written by its factors, the first of which may be a sign. -/
theorem writes_product (hu : Writes left u) (hv : Writes right v) :
    Writes (printProduct u v left right) (mul u v) := by
  unfold printProduct
  by_cases hsign : u.isLiteral (-1) = true
  · rw [if_pos hsign, Writes, String.toList_append]
    refine hv.factor.cons lexes_minus ?_
    intro s ts hts front first hfirst
    have hnegated := hts _ _ (hfirst.negate s)
    simpa [rereadWith, hsign] using hnegated
  · have hproduct : Gives (IsPart (mul u v)) ((Expr.grouped u.isLoose left).toList ++
        (spacedSymbol .mul ++ (Expr.grouped v.isLoose right).toList)) := by
      refine hu.factor.joined (by decide) hv.factor ?_
      intro ts s ts' hts hts' front first hfirst
      have hright := hts' _ _ (takesFactor_mul (hts front first hfirst) s)
      simpa [rereadWith, hsign] using hright
    rw [if_neg hsign]
    simpa [Writes, String.toList_append, spacedSymbol, Operator.symbol] using hproduct

/-- The text of a sum, which is read with the terms of its right side joined to the left one. -/
theorem writes_sum (hu : Writes left u) (hv : Writes right v)
    (hreread : ∀ first, (add u v).rereadWith first =
      spliced v.isSum (add (spliced u.isSum first u.rereadWith)) v.rereadWith) :
    Writes (left ++ " + " ++ right) (add u v) := by
  have hsum : Gives (IsPart (add u v)) (left.toList ++ (spacedSymbol .add ++ right.toList)) := by
    refine hu.joined (by decide) hv ?_
    intro ts s ts' hts hts' front first hfirst
    have hright := hts'.terms (takesTerm_add (hts.terms hfirst) s)
    simpa [hreread] using hright
  simpa [Writes, String.toList_append, spacedSymbol, Operator.symbol] using hsum

/-- A sum takes the terms of its right side one by one, if this side is no product. -/
theorem rereadWith_add {v : Expr Float} (hv : ∀ w t, v ≠ mul w t)
    (first : Expr Float → Expr Float) : (add u v).rereadWith first =
      spliced v.isSum (add (spliced u.isSum first u.rereadWith)) v.rereadWith := by
  cases v with
  | mul w t => exact absurd rfl (hv w t)
  | _ => rfl

/-- The text of an expression gives the tokens that are read as another. -/
theorem writes_print (hnames : e.LeavesIn IsVariableName fun _ => True)
    (hliterals : e.LiteralsIn IsWritable) : Writes e.print e := by
  -- A sum with a product on its right is written in three ways, so the cases are those of the
  -- printer and not those of the expression.
  induction e using Expr.print.induct with
  | case1 x => exact writes_number hliterals
  | case2 name =>
    have hname : nameExpr (α := Float) name = symbol name := by rw [nameExpr, hnames.2]
    exact writes_name hnames.1 hname fun _ => id
  | case3 c =>
    have hidentifier : IsIdentifier c.name := by
      cases c <;> exact ⟨_, _, rfl, rfl, rfl⟩
    have hname : nameExpr (α := Float) c.name = constant c := by
      rw [nameExpr, Constant.ofName?_name]
    exact writes_name hidentifier hname fun _ => id
  | case4 f u ih => exact writes_call f (ih hnames hliterals)
  | case5 u w t hsign ihu iht =>
    have hu := ihu hnames.1 hliterals.1
    have ht := iht hnames.2.2 hliterals.2.2
    have hsum : Gives (IsPart (add u (mul w t))) (u.print.toList ++
        (spacedSymbol .sub ++ (Expr.grouped t.isLoose t.print).toList)) := by
      refine hu.joined (by decide) ht.subtrahend ?_
      intro ts s ts' hts hts' front first hfirst
      have hdifference := Derives.sub s (hts.terms hfirst) hts'
      simpa [rereadWith, reread, hsign] using hdifference
    simp only [print, if_pos hsign]
    simpa [Writes, String.toList_append, spacedSymbol, Operator.symbol] using hsum
  | case6 u w t hsign ihu ihw iht =>
    have hu := ihu hnames.1 hliterals.1
    have hproduct := writes_product (ihw hnames.2.1 hliterals.2.1) (iht hnames.2.2 hliterals.2.2)
    simp only [print, if_neg hsign]
    exact writes_sum hu hproduct fun first => by simp [rereadWith, hsign, spliced, isSum]
  | case7 u v hmul ihu ihv =>
    have hprint : (add u v).print = u.print ++ " + " ++ v.print := by
      cases v with
      | mul w t => exact absurd rfl (hmul w t)
      | _ => rfl
    rw [hprint]
    exact writes_sum (ihu hnames.1 hliterals.1) (ihv hnames.2 hliterals.2)
      (rereadWith_add fun w t h => hmul w t h)
  | case8 u v ihu ihv =>
    have hu := ihu hnames.1 hliterals.1
    have hv := ihv hnames.2 hliterals.2
    have hsum : Gives (IsPart (sub u v)) (u.print.toList ++
        (spacedSymbol .sub ++ (Expr.grouped v.isSum v.print).toList)) := by
      refine hu.joined (by decide) hv.term ?_
      intro ts s ts' hts hts' front first hfirst
      have hdifference := Derives.sub s (hts.terms hfirst) hts'
      simpa [rereadWith, reread] using hdifference
    simpa [Writes, print, String.toList_append, spacedSymbol, Operator.symbol] using hsum
  | case9 u v ihu ihv =>
    exact writes_product (ihu hnames.1 hliterals.1) (ihv hnames.2 hliterals.2)
  | case10 u v ihu ihv =>
    have hu := ihu hnames.1 hliterals.1
    have hv := ihv hnames.2 hliterals.2
    have hquotient : Gives (IsPart (div u v)) ((Expr.grouped u.isSum u.print).toList ++
        (spacedSymbol .div ++ (Expr.grouped (!v.isTightDenominator) v.print).toList)) :=
      hu.term.joined (by decide) hv.denominator fun ts s ts' hts hts' => .div s hts hts'
    simpa [Writes, print, String.toList_append, spacedSymbol, Operator.symbol] using hquotient
  | case11 u v ihu ihv =>
    have hu := ihu hnames.1 hliterals.1
    have hv := ihv hnames.2 hliterals.2
    have hpower : Gives (IsPart (pow u v)) ((Expr.grouped u.isLooseBase u.print).toList ++
        (['^'] ++ (Expr.grouped (!v.isTightExponent) v.print).toList)) :=
      hu.base.raised hv.exponent fun ts s ts' hts hts' => .pow s hts (hts'.unary (by decide))
    simpa [Writes, print, String.toList_append] using hpower

end Texts

section Reading

/-- The text of an expression is read as `reread` says. -/
theorem read_print_eq (hnames : e.LeavesIn IsVariableName fun _ => True)
    (hliterals : e.LiteralsIn IsWritable) : read 0 e.print.toList = .ok e.reread := by
  obtain ⟨ts, stop, hts, hlexes⟩ := writes_print hnames hliterals 0 [] apart_nil
  rw [read, hlexes.lex_eq_ok]
  exact hts.sum.parseAll_eq_ok _

/-- The text of an expression that was read is accepted if what it is read as keeps within the
limits. -/
theorem parse_print_eq (h : parse text = .ok e) (hliterals : e.LiteralsIn IsWritable) :
    parse e.print = bounded {} e.print e.reread := by
  rw [parse, parseSide, read_print_eq (leavesIn_of_parse h) hliterals]

/-- A finite literal other than the negative zero is read as itself. -/
theorem rereadNumber_eq {x : Float} (hfinite : x.isFinite = true) (hzero : x ≠ -0) :
    rereadNumber x = number x := by
  have hmagnitude : rereadMagnitude x.abs = number x.abs :=
    if_pos ((Double.isFinite_abs x).trans hfinite)
  unfold rereadNumber
  rw [hmagnitude]
  rcases Double.sign_cases (isNaN_of_isFinite hfinite) with ⟨hneg, habs⟩ | ⟨hneg, habs | h⟩
  · rw [if_pos hneg]
    exact congrArg number habs.symm
  · rw [if_neg hneg, ← habs]
  · exact absurd h hzero

/-- A sum is read as a sum if its right side is neither a sum nor negated. -/
theorem reread_add {v : Expr Float} (hsum : v.isSum = false)
    (hsign : ∀ t, v ≠ mul (number (-1)) t) : (add u v).reread = add u.reread v.reread := by
  have hleft : spliced u.isSum id u.rereadWith = u.reread := spliced_id _ _
  cases v with
  | add w t | sub w t => contradiction
  | mul w t =>
    have hw : ¬w.isLiteral (-1) = true := fun h => hsign t (eq_neg_one_of_isLiteral h ▸ rfl)
    rw [reread, rereadWith, hleft, if_neg hw]
    rfl
  | _ => exact congrArg (fun left => add left _) hleft

/-- A product is read as a product if its right side is none; a factor of minus one is a sign. -/
theorem reread_mul {v : Expr Float} (hproduct : v.isProduct = false) :
    (mul u v).reread = if u.isLiteral (-1) then v.reread.negate else mul u.reread v.reread := by
  have hleft : spliced u.isProduct id u.rereadWith = u.reread := spliced_id _ _
  rw [reread, rereadWith, hleft, hproduct]
  rfl

/-- The text of a settled expression is read as the expression. -/
theorem reread_of_isSettled (h : e.IsSettled) : e.reread = e := by
  induction e with
  | number x => exact rereadNumber_eq h.1 h.2
  | symbol name | constant c => rfl
  | call f u ih => exact congrArg (call f) (ih h)
  | add u v ihu ihv =>
    obtain ⟨hu, hv, hsum, hsign⟩ := h
    rw [reread_add hsum hsign, ihu hu, ihv hv]
  | sub u v ihu ihv =>
    have hleft : spliced u.isSum id u.rereadWith = u := (spliced_id _ _).trans (ihu h.1)
    exact congrArg₂ sub hleft (ihv h.2)
  | mul u v ihu ihv =>
    obtain ⟨hu, hv, hproduct, hsign⟩ := h
    rw [reread_mul hproduct, ihu hu, ihv hv]
    split_ifs with hliteral
    · obtain rfl := eq_neg_one_of_isLiteral hliteral
      exact negate_eq_mul (hsign rfl)
    · rfl
  | div u v ihu ihv => exact congrArg₂ div (ihu h.1) (ihv h.2)
  | pow u v ihu ihv => exact congrArg₂ pow (ihu h.1) (ihv h.2)

/-- A settled expression within the limits is what its text is read as. -/
theorem parse_print_of_isSettled (hnames : e.LeavesIn IsVariableName fun _ => True)
    (hliterals : e.LiteralsIn IsWritable) (hsettled : e.IsSettled) (hwithin : e.IsWithin {}) :
    parse e.print = .ok e := by
  rw [parse, parseSide, read_print_eq hnames hliterals, reread_of_isSettled hsettled]
  exact bounded_eq_ok_iff.mpr ⟨hwithin, rfl⟩

/-- The text of an expression is accepted, and what is read has the values of the expression. -/
def Reparses (e : Expr Float) : Prop :=
  ∃ w, parse e.print = .ok w ∧ ∀ p y, e.evaluate p = .ok y → w.evaluate p = .ok y

/-- Whatever was read from a text reparses exactly if the expression that its own text is read as
keeps within the limits and has its values; a settled expression is read again as itself. -/
theorem reparses_iff (h : parse text = .ok e) (hliterals : e.LiteralsIn IsWritable) :
    (e.Reparses ↔ e.reread.IsWithin {} ∧
      ∀ p y, e.evaluate p = .ok y → e.reread.evaluate p = .ok y) ∧
    (e.IsSettled → parse e.print = .ok e) := by
  have hprint := parse_print_eq h hliterals
  refine ⟨⟨?_, ?_⟩, fun hsettled => ?_⟩
  · rintro ⟨w, hw, hvalues⟩
    obtain ⟨hwithin, rfl⟩ := bounded_eq_ok_iff.mp (hprint.symm.trans hw)
    exact ⟨hwithin, hvalues⟩
  · rintro ⟨hwithin, hvalues⟩
    exact ⟨e.reread, hprint.trans (bounded_eq_ok_iff.mpr ⟨hwithin, rfl⟩), hvalues⟩
  · exact parse_print_of_isSettled (leavesIn_of_parse h) hliterals hsettled (isWithin_of_parse h)

/-- The quotient of a difference by a power is read as itself. -/
theorem reparses_iff_quotient :
    let e : Expr Float := sub (mul (number 0.5) (symbol "x"))
      (div (sub (symbol "y") (number 3)) (pow (call .sin (symbol "z")) (number 2)))
    parse "0.5 * x - (y - 3) / sin(z)^2" = .ok e ∧ e.LiteralsIn IsWritable ∧
      ((e.Reparses ↔ e.reread.IsWithin {} ∧
        ∀ p y, e.evaluate p = .ok y → e.reread.evaluate p = .ok y) ∧
      (e.IsSettled → parse e.print = .ok e)) := by
  intro e
  have hprint : e.print = "0.5 * x - (y - 3) / sin(z)^2" := by decide +kernel
  have hx : IsVariableName "x" := ⟨⟨'x', [], rfl, rfl, rfl⟩, by decide⟩
  have hy : IsVariableName "y" := ⟨⟨'y', [], rfl, rfl, rfl⟩, by decide⟩
  have hz : IsVariableName "z" := ⟨⟨'z', [], rfl, rfl, rfl⟩, by decide⟩
  have hnames : e.LeavesIn IsVariableName (fun _ => True) :=
    ⟨⟨trivial, hx⟩, ⟨hy, trivial⟩, hz, trivial⟩
  have hhalf : IsWritable 0.5 := ⟨by decide +kernel, fun _ =>
    ⟨⟨['0'], some ['5'], none⟩, ⟨rfl, rfl, rfl⟩, by decide +kernel, 5, -1, rfl, rfl⟩⟩
  have htwo : IsWritable 2 := ⟨by decide +kernel, fun _ =>
    ⟨⟨['2'], none, none⟩, ⟨rfl, rfl, rfl⟩, by decide +kernel, 2, 0, rfl, rfl⟩⟩
  have hthree : IsWritable 3 := ⟨by decide +kernel, fun _ =>
    ⟨⟨['3'], none, none⟩, ⟨rfl, rfl, rfl⟩, by decide +kernel, 3, 0, rfl, rfl⟩⟩
  have hliterals : e.LiteralsIn IsWritable :=
    ⟨⟨hhalf, trivial⟩, ⟨trivial, hthree⟩, trivial, htwo⟩
  have hsettled : e.IsSettled := by
    have hfinite : (0.5 : Float).isFinite ∧ (2 : Float).isFinite ∧ (3 : Float).isFinite := by
      decide +kernel
    have hzero : (0.5 : Float) ≠ -0 ∧ (2 : Float) ≠ -0 ∧ (3 : Float) ≠ -0 := by decide +kernel
    exact ⟨⟨⟨hfinite.1, hzero.1⟩, trivial, rfl, nofun⟩,
      ⟨trivial, hfinite.2.2, hzero.2.2⟩, trivial, hfinite.2.1, hzero.2.1⟩
  have hparse : parse "0.5 * x - (y - 3) / sin(z)^2" = .ok e :=
    hprint ▸ parse_print_of_isSettled hnames hliterals hsettled ⟨by decide, by decide⟩
  exact ⟨hparse, hliterals, reparses_iff hparse hliterals⟩

/-- Grouped to the right, a sum loses its parentheses, and the terms are added in another order. -/
theorem not_reparses_of_sum :
    ¬∀ (text : String) (e : Expr Float), parse text = .ok e → e.Reparses := by
  intro hall
  let p : Point Float := .ofList [("a", 1), ("b", 1e16), ("c", -1e16)]
  have hok : (parse "a + (b + c)" : Except (ParseError Float) (Expr Float)).isOk = true := by
    decide +kernel
  have hvalues : (parse "a + (b + c)" : Except (ParseError Float) (Expr Float)).toOption.all
      (fun e => (e.evaluate p).toOption.any (· == 1) &&
        (parse e.print : Except (ParseError Float) (Expr Float)).toOption.all fun w =>
          (w.evaluate p).toOption.all fun z => !(z == 1)) = true := by
    decide +kernel
  obtain ⟨e, he⟩ := exists_eq_ok_of_isOk hok
  obtain ⟨w, hw, hsame⟩ := hall _ e he
  obtain ⟨hone, hother⟩ := Bool.and_eq_true_iff.mp (all_toOption_iff.mp hvalues e he)
  obtain ⟨y, hy, hone⟩ := (Option.any_eq_true _ _).mp hone
  have hsame := hsame p y (toOption_eq_some_iff.mp hy)
  have hother := all_toOption_iff.mp (all_toOption_iff.mp hother w hw) y hsame
  simp [hone] at hother

end Reading

section Balanced

/-- A sum of sums of sums, as deep on the left as on the right. -/
def balanced : Nat → Expr Float
  | 0 => symbol "x"
  | n + 1 => add (balanced n) (balanced n)

/-- A text of a balanced sum, with all its parentheses. -/
def balancedText : Nat → List Char
  | 0 => ['x']
  | n + 1 => ['('] ++ (balancedText n ++ (spacedSymbol .add ++ balancedText n) ++ [')'])

/-- A balanced sum grows by one level at a time. -/
theorem depth_balanced (n : Nat) : (balanced n).depth = n + 1 := by
  induction n with
  | zero => rfl
  | succ n ih =>
    simp only [balanced, depth, ih]
    omega

/-- A balanced sum doubles its leaves at each level. -/
theorem size_balanced (n : Nat) : (balanced n).size + 1 = 2 ^ (n + 1) := by
  induction n with
  | zero => rfl
  | succ n ih =>
    simp only [balanced, size, Nat.pow_succ] at ih ⊢
    omega

/-- The text of a balanced sum in parentheses is an operand. -/
theorem gives_balanced (n : Nat) : Gives (Derives .atom · (balanced n)) (balancedText n) := by
  induction n with
  | zero =>
    have hname : IsIdentifier "x" := ⟨'x', [], rfl, rfl, rfl⟩
    exact gives_identifier hname fun s => .symbol s (by decide)
  | succ n ih =>
    have hsum : Gives (Derives .sum · (balanced (n + 1)))
        (balancedText n ++ (spacedSymbol .add ++ balancedText n)) :=
      ih.joined (by decide) ih fun ts s ts' hts hts' =>
        .add s hts.sum (hts'.product (by decide))
    exact hsum.enclosed fun s ts s' hts => .paren s s' hts

/-- Where all terms are added one behind the other, the depth grows with their number. -/
theorem depth_spliced_balanced (n : Nat) (first : Expr Float → Expr Float) :
    (spliced (balanced n).isSum first (balanced n).rereadWith).depth + 1 =
      (first (symbol "x")).depth + 2 ^ n := by
  induction n generalizing first with
  | zero => rfl
  | succ n ih =>
    have hproduct : ∀ w t, balanced n ≠ mul w t := by
      cases n <;> simp [balanced]
    have hleft := ih first
    have hright := ih (add (spliced (balanced n).isSum first (balanced n).rereadWith))
    have hread : spliced (balanced (n + 1)).isSum first (balanced (n + 1)).rereadWith =
        spliced (balanced n).isSum
          (add (spliced (balanced n).isSum first (balanced n).rereadWith))
          (balanced n).rereadWith := rereadWith_add hproduct first
    have hpos : 0 < 2 ^ n := Nat.two_pow_pos n
    have hterm : 0 < (first (symbol "x")).depth := by
      cases first (symbol "x") <;> simp [depth]
    rw [hread]
    simp only [depth, Nat.pow_succ] at hright ⊢
    omega

/-- A balanced sum is read as deep as it has leaves. -/
theorem depth_reread_balanced (n : Nat) : (balanced n).reread.depth = 2 ^ n := by
  have hdepth := depth_spliced_balanced n id
  rw [spliced_id] at hdepth
  have hone : (id (symbol "x" : Expr Float)).depth = 1 := rfl
  rw [hone] at hdepth
  exact Nat.add_right_cancel (hdepth.trans (Nat.add_comm 1 _))

/-- The symbols of a balanced sum are names of variables. -/
theorem leavesIn_balanced (n : Nat) : (balanced n).LeavesIn IsVariableName fun _ => True := by
  induction n with
  | zero => exact ⟨⟨'x', [], rfl, rfl, rfl⟩, by decide⟩
  | succ n ih => exact ⟨ih, ih⟩

/-- A balanced sum has no literals that can not be written. -/
theorem literalsIn_balanced (n : Nat) : (balanced n).LiteralsIn IsWritable := by
  induction n with
  | zero => trivial
  | succ n ih => exact ⟨ih, ih⟩

/-- A balanced sum of more than a hundred terms is read from its text with parentheses, but its own
text is refused as too deep. -/
theorem not_reparses_balanced {n : Nat} (hmany : 7 ≤ n) (hfew : n ≤ 12) :
    parse (String.ofList (balancedText n)) = .ok (balanced n) ∧ ¬(balanced n).Reparses := by
  constructor
  · obtain ⟨ts, stop, hts, hlexes⟩ := gives_balanced n 0 [] apart_nil
    have hread : read 0 (balancedText n) = .ok (balanced n) := by
      rw [read, hlexes.lex_eq_ok]
      exact hts.sum.parseAll_eq_ok _
    have hsize := size_balanced n
    have hpower : 2 ^ (n + 1) ≤ 2 ^ 13 := Nat.pow_le_pow_right (by decide) (by omega)
    rw [parse, parseSide, String.toList_ofList, hread]
    refine bounded_eq_ok_iff.mpr ⟨⟨?_, ?_⟩, rfl⟩
    · rw [depth_balanced]
      exact Nat.le_trans (Nat.succ_le_succ hfew) (by decide)
    · have hlimit : ({} : Limits).size = 10000 := rfl
      omega
  · rintro ⟨w, hw, -⟩
    rw [parse, parseSide, read_print_eq (leavesIn_balanced n) (literalsIn_balanced n)] at hw
    have hdepth := (bounded_eq_ok_iff.mp hw).1.1
    have hpower : 2 ^ 7 ≤ 2 ^ n := Nat.pow_le_pow_right (by decide) hmany
    have hlimit : ({} : Limits).depth = 100 := rfl
    rw [depth_reread_balanced] at hdepth
    omega

end Balanced

end Expr

end ErrorBudget
