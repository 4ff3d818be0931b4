import ErrorBudget.Expr.Reading
import ErrorBudget.Proofs.Parser.Grammar
import ErrorBudget.Proofs.Printing.Lexing
import ErrorBudget.Proofs.Printing.Meaning

/-!
# Texts that spell expressions

A text spells an expression (`Spells`) if its tokens belong to a part of the grammar and mean
something that agrees with the expression. Parts are the layers of the grammar, and `Factors` for
products without a quotient: sums and factors may be written one behind the other however they are
grouped, because reading groups them to the left (`Derives.exists_sum_append`, `Factors.append`).
There is one lemma for each way of putting texts together.
-/

set_option autoImplicit false

namespace ErrorBudget

namespace Parser

/-- Factors joined by products only. -/
inductive Factors : Tokens Float → Expr Float → Prop
  | one {ts u} (h : Derives .unary ts u) (hu : u.IsProper) : Factors ts u
  | mul {ts ts' u v} (s : Span) (h : Factors ts u) (h' : Derives .unary ts' v) :
      Factors (ts ++ ⟨.operator .mul, s⟩ :: ts') (.mul u v)

variable {R : Type*} [CommRing R] {ts ts' : Tokens Float} {u v : Expr Float}

/-- Factors are a product. -/
theorem Factors.product (h : Factors ts u) : Derives .product ts u := by
  induction h with
  | one h hu => exact .factor h
  | mul s h h' ih => exact .mul s ih h'

/-- Factors behind other factors multiply the whole product in front. -/
theorem Factors.append (h : Factors ts u) (s : Span) (h' : Factors ts' v) :
    ∃ w, Factors (ts ++ ⟨.operator .mul, s⟩ :: ts') w ∧ Agrees R w (.mul u v) := by
  -- The last factor behind stays the outermost one, so the induction is on what stands behind.
  induction h' with
  | one h' hv => exact ⟨_, .mul s h h', .refl _⟩
  | @mul ts₁ ts₂ v₁ v₂ s' h₁ h₂ ih =>
    obtain ⟨w, hw, hagrees⟩ := ih
    refine ⟨.mul w v₂, ?_, ?_⟩
    · have hts := Factors.mul s' hw h₂
      rwa [List.append_assoc, List.cons_append] at hts
    · exact (Agrees.combine .mul hagrees (.refl v₂)).trans (.mul_mul u v₁ v₂)

/-- A sign goes to the first factor. -/
theorem Factors.negate (h : Factors ts u) (s : Span) :
    ∃ w, Factors (⟨.operator .sub, s⟩ :: ts) w ∧ Agrees R w (.mul (.number (-1)) u) := by
  induction h with
  | @one ts u h hu =>
    have hagrees : Agrees R u.negate (.mul (.number (-1)) u) := .negate hu
    exact ⟨_, .one (derives_negate s h) (hagrees.proper.mpr trivial), hagrees⟩
  | @mul ts₁ ts₂ u₁ u₂ s' h₁ h₂ ih =>
    obtain ⟨w, hw, hagrees⟩ := ih
    refine ⟨.mul w u₂, .mul s' hw h₂, ?_⟩
    exact (Agrees.combine .mul hagrees (.refl u₂)).trans (.mul_mul _ u₁ u₂)

/-- Terms behind other terms are added to the whole sum in front. -/
theorem Derives.exists_sum_append (h : Derives .sum ts u) (s : Span) (h' : Derives .sum ts' v) :
    ∃ w, Derives .sum (ts ++ ⟨.operator .add, s⟩ :: ts') w ∧ Agrees R w (.add u v) := by
  -- The layer is generalized for the induction, in which only sums matter.
  generalize hl : Layer.sum = l at h'
  induction h' with
  | term h' => exact ⟨_, .add s h h', .refl _⟩
  | @add ts₁ ts₂ v₁ v₂ s' h₁ h₂ ih₁ ih₂ =>
    obtain ⟨w, hw, hagrees⟩ := ih₁ rfl
    refine ⟨.add w v₂, ?_, ?_⟩
    · have hts := Derives.add s' hw h₂
      rwa [List.append_assoc, List.cons_append] at hts
    · exact (Agrees.combine .add hagrees (.refl v₂)).trans (.add_add u v₁ v₂)
  | @sub ts₁ ts₂ v₁ v₂ s' h₁ h₂ ih₁ ih₂ =>
    obtain ⟨w, hw, hagrees⟩ := ih₁ rfl
    refine ⟨.sub w v₂, ?_, ?_⟩
    · have hts := Derives.sub s' hw h₂
      rwa [List.append_assoc, List.cons_append] at hts
    · exact (Agrees.combine .sub hagrees (.refl v₂)).trans (.add_sub u v₁ v₂)
  | _ => cases hl

end Parser

open ErrorBudget.Parser

/-- A text spells an expression as a part of the grammar: in front of anything that is apart from
it, its tokens belong to the part, with a meaning that agrees with the expression. -/
def Spells (R : Type*) [CommRing R] (part : Tokens Float → Expr Float → Prop) (cs : List Char)
    (e : Expr Float) : Prop :=
  ∀ start rest, Apart rest → ∃ ts stop w,
    part ts w ∧ Agrees R w e ∧ Token.Lexes cs start rest ts stop

namespace Spells

variable {R : Type*} [CommRing R] {part part' whole : Tokens Float → Expr Float → Prop}
  {cs cs' : List Char} {e e' u v : Expr Float}

/-- A text spells an expression exactly if it gives tokens whose meaning agrees with the
expression. -/
theorem iff_gives :
    Spells R part cs e ↔ Token.Gives (fun ts => ∃ w, part ts w ∧ Agrees R w e) cs := by
  constructor
  · intro h start rest hrest
    obtain ⟨ts, stop, w, hw, hagrees, hlexes⟩ := h start rest hrest
    exact ⟨ts, stop, ⟨w, hw, hagrees⟩, hlexes⟩
  · intro h start rest hrest
    obtain ⟨ts, stop, ⟨w, hw, hagrees⟩, hlexes⟩ := h start rest hrest
    exact ⟨ts, stop, w, hw, hagrees, hlexes⟩

/-- A text that spells an expression as one part of the grammar spells it as a wider part. -/
theorem imp (h : Spells R part cs e)
    (hpart : ∀ ts w, Agrees R w e → part ts w → part' ts w) : Spells R part' cs e := by
  refine iff_gives.mpr ((iff_gives.mp h).imp ?_)
  rintro ts ⟨w, hw, hagrees⟩
  exact ⟨w, hpart ts w hagrees hw, hagrees⟩

/-- A text spells every expression that agrees with the one that it spells. -/
theorem of_agrees (h : Spells R part cs e) (hagrees : Agrees R e e') :
    Spells R part cs e' := by
  refine iff_gives.mpr ((iff_gives.mp h).imp ?_)
  rintro ts ⟨w, hw, hw'⟩
  exact ⟨w, hw, hw'.trans hagrees⟩

/-- A text that gives tokens with an expression as their meaning spells the expression. -/
theorem of_gives (h : Token.Gives (part · e) cs) : Spells R part cs e :=
  iff_gives.mpr (h.imp fun _ hts => ⟨e, hts, .refl e⟩)

section Layers

variable {l : Layer}

/-- What spells an expression as any layer spells it as a sum. -/
theorem sum (h : Spells R (Derives l) cs e) : Spells R (Derives .sum) cs e :=
  h.imp fun _ _ _ hw => hw.sum

/-- What spells an expression as a layer above a sum spells it as a product. -/
theorem product (h : Spells R (Derives l) cs e) (hl : 11 < l.strength) :
    Spells R (Derives .product) cs e :=
  h.imp fun _ _ _ hw => hw.product hl

/-- What spells an expression as a layer above a product spells it as an operand with signs. -/
theorem unary (h : Spells R (Derives l) cs e) (hl : 21 < l.strength) :
    Spells R (Derives .unary) cs e :=
  h.imp fun _ _ _ hw => hw.unary hl

/-- What spells an expression as a layer above a product spells it as one factor. -/
theorem factors (h : Spells R (Derives l) cs e) (hl : 21 < l.strength) (he : e.IsProper) :
    Spells R Factors cs e :=
  h.imp fun _ _ hagrees hw => .one (hw.unary hl) (hagrees.proper.mpr he)

end Layers

section Leaves

/-- An identifier spells what it names. -/
theorem identifier {name : String} (hname : IsIdentifier name) (he : nameExpr name = e) :
    Spells R (Derives .atom) name.toList e :=
  of_gives (Token.gives_identifier hname fun s => he ▸ derives_nameExpr name s)

/-- The name of a variable spells it. -/
theorem symbol {name : String} (hname : IsIdentifier name) (hfree : Constant.ofName? name = none) :
    Spells R (Derives .atom) name.toList (.symbol name) := by
  apply identifier hname
  rw [nameExpr, hfree]

/-- The name of a constant spells it. -/
theorem constant (c : Constant) : Spells R (Derives .atom) c.name.toList (.constant c) := by
  have hname : IsIdentifier c.name := by
    cases c <;> exact ⟨_, _, rfl, rfl, rfl⟩
  apply identifier hname
  rw [nameExpr, Constant.ofName?_name]

end Leaves

section Enclosed

/-- A text in parentheses is an operand. -/
theorem parentheses (h : Spells R (Derives .sum) cs e) :
    Spells R (Derives .atom) (['('] ++ (cs ++ [')'])) e := by
  refine iff_gives.mpr ((iff_gives.mp h).enclosed ?_)
  rintro s ts s' ⟨w, hw, hagrees⟩
  exact ⟨w, .paren s s' hw, hagrees⟩

/-- A text in parentheses behind the name of a function calls it. -/
theorem call (f : Func) (h : Spells R (Derives .sum) cs e) :
    Spells R (Derives .atom) (f.name.toList ++ (['('] ++ (cs ++ [')']))) (.call f e) := by
  have hname : IsIdentifier f.name := by
    cases f <;> exact ⟨_, _, rfl, rfl, rfl⟩
  refine iff_gives.mpr (Token.Gives.called hname (iff_gives.mp h) ?_)
  rintro s s' ts s'' ⟨w, hw, hagrees⟩
  exact ⟨.call f w, .call s s' s'' (Func.ofName?_name f) hw, hagrees.call f⟩

end Enclosed

section Joined

/-- Two texts with an operator between them spell what the operator makes of their expressions, as
long as the tokens do. -/
theorem joined {op : Operator} (hop : op ≠ .pow) (h : Spells R part cs u)
    (h' : Spells R part' cs' v)
    (hjoin : ∀ ts ts' s w w', part ts w → part' ts' w' →
      ∃ x, whole (ts ++ ⟨.operator op, s⟩ :: ts') x ∧ Agrees R x (combine op w w')) :
    Spells R whole (cs ++ (Token.spacedSymbol op ++ cs')) (combine op u v) := by
  refine iff_gives.mpr ((iff_gives.mp h).joined hop (iff_gives.mp h') ?_)
  rintro ts s ts' ⟨w, hw, hagrees⟩ ⟨w', hw', hagrees'⟩
  obtain ⟨x, hx, hjoined⟩ := hjoin ts ts' s w w' hw hw'
  exact ⟨x, hx, hjoined.trans (.combine op hagrees hagrees')⟩

/-- Two texts with a plus sign between them spell a sum. -/
theorem add (h : Spells R (Derives .sum) cs u) (h' : Spells R (Derives .sum) cs' v) :
    Spells R (Derives .sum) (cs ++ (Token.spacedSymbol .add ++ cs')) (.add u v) :=
  joined (by decide) h h' fun _ _ s _ _ hw hw' => hw.exists_sum_append s hw'

/-- Two texts with a minus sign between them spell a difference. -/
theorem sub (h : Spells R (Derives .sum) cs u) (h' : Spells R (Derives .product) cs' v) :
    Spells R (Derives .sum) (cs ++ (Token.spacedSymbol .sub ++ cs')) (.sub u v) :=
  joined (by decide) h h' fun _ _ s _ _ hw hw' => ⟨_, .sub s hw hw', .refl _⟩

/-- Two texts with a multiplication sign between them spell a product. -/
theorem mul (h : Spells R Factors cs u) (h' : Spells R Factors cs' v) :
    Spells R Factors (cs ++ (Token.spacedSymbol .mul ++ cs')) (.mul u v) :=
  joined (by decide) h h' fun _ _ s _ _ hw hw' => hw.append s hw'

/-- Two texts with a division sign between them spell a quotient. -/
theorem div (h : Spells R (Derives .product) cs u) (h' : Spells R (Derives .unary) cs' v) :
    Spells R (Derives .product) (cs ++ (Token.spacedSymbol .div ++ cs')) (.div u v) :=
  joined (by decide) h h' fun _ _ s _ _ hw hw' => ⟨_, .div s hw hw', .refl _⟩

/-- Two texts with a caret between them spell a power. -/
theorem pow (h : Spells R (Derives .atom) cs u) (h' : Spells R (Derives .unary) cs' v) :
    Spells R (Derives .power) (cs ++ (['^'] ++ cs')) (.pow u v) := by
  refine iff_gives.mpr ((iff_gives.mp h).raised (iff_gives.mp h') ?_)
  rintro ts s ts' ⟨w, hw, hagrees⟩ ⟨w', hw', hagrees'⟩
  exact ⟨.pow w w', .pow s hw hw', .combine .pow hagrees hagrees'⟩

/-- A sign multiplies by minus one. -/
theorem negate (h : Spells R Factors cs e) :
    Spells R Factors (['-'] ++ cs) (.mul (.number (-1)) e) := by
  refine iff_gives.mpr ((iff_gives.mp h).cons Token.lexes_minus ?_)
  rintro s ts ⟨w, hw, hagrees⟩
  obtain ⟨x, hx, hnegate⟩ := hw.negate (R := R) s
  exact ⟨x, hx, hnegate.trans (.combine .mul (.refl _) hagrees)⟩

end Joined

/-- A text that spells an expression is read as one that agrees with it. -/
theorem exists_read_eq_ok (h : Spells R (Derives .sum) cs e) (start : Nat) :
    ∃ w, Expr.read start cs = .ok w ∧ Agrees R w e := by
  obtain ⟨ts, stop, w, hw, hagrees, hlexes⟩ := h start [] apart_nil
  have hparse := hw.parseAll_eq_ok (start + byteLength cs)
  refine ⟨w, ?_, hagrees⟩
  rw [Expr.read, hlexes.lex_eq_ok]
  exact hparse

end Spells

end ErrorBudget
