import ErrorBudget.Double
import ErrorBudget.Proofs.Token.Steps
import Mathlib.Data.List.Basic

/-!
# Texts with blanks between them

A blank ends whatever stands in front of it: no lexeme goes on behind it, and none looks further
(`Token.lexeme_append_stopper`). So two texts with blanks between them give the tokens of the one
and then those of the other, and they fail where one of them fails (`Token.lex_separated`). The same
holds of every character that can not be a part of a longer lexeme (`Token.IsStopper`), among them
the equal sign of an equation.
-/

set_option autoImplicit false

namespace ErrorBudget

section Scanning

variable {p : Char → Bool} {cs rest : List Char} {b : Char}

/-- What is taken from a text ends at a character that is not taken. -/
theorem takeWhile_append_cons (hb : p b = false) :
    (cs ++ b :: rest).takeWhile p = cs.takeWhile p := by
  induction cs with
  | nil => simp [hb]
  | cons c cs ih => simp [List.takeWhile_cons, ih]

/-- What is left of a text goes on behind a character that is not taken. -/
theorem dropWhile_append_cons (hb : p b = false) :
    (cs ++ b :: rest).dropWhile p = cs.dropWhile p ++ b :: rest := by
  induction cs with
  | nil => simp [hb]
  | cons c cs ih =>
    rw [List.cons_append, List.dropWhile_cons, List.dropWhile_cons, ih]
    split_ifs <;> rfl

end Scanning

namespace Token

/-- Whether a character can only be a lexeme of its own or none, so that every lexeme in front of it
ends there. -/
structure IsStopper (b : Char) : Prop where
  part : isNamePart b = false
  point : b ≠ '.'
  star : b ≠ '*'
  sign : Literal.isSign b = false

/-- The separators are the blank, the tab and the characters that end lines. -/
theorem isSeparator_iff {b : Char} : isSeparator b = true ↔ b ∈ [' ', '\t', '\r', '\n'] := by
  simp [isSeparator, or_assoc]

/-- A separator stops every lexeme. -/
theorem isStopper_of_isSeparator {b : Char} (h : isSeparator b = true) : IsStopper b := by
  simp only [isSeparator_iff, List.mem_cons, List.not_mem_nil, or_false] at h
  rcases h with rfl | rfl | rfl | rfl <;> exact ⟨by decide, by decide, by decide, by decide⟩

/-- An equal sign stops every lexeme. -/
theorem isStopper_equalSign : IsStopper '=' :=
  ⟨by decide, by decide, by decide, by decide⟩

variable {b : Char}

/-- A character that stops every lexeme is no digit. -/
theorem IsStopper.not_isDigit (hb : IsStopper b) : b.isDigit = false := by
  have hpart := hb.part
  simp only [isNamePart, Char.isAlphanum, Bool.or_eq_false_iff] at hpart
  exact hpart.1.2

/-- A character that stops every lexeme does not begin an exponent. -/
theorem IsStopper.not_isMark (hb : IsStopper b) : Literal.isMark b = false := by
  simp only [Literal.isMark, Bool.or_eq_false_iff, decide_eq_false_iff_not]
  constructor <;>
  · rintro rfl
    exact absurd hb.part (by decide)

end Token

namespace Literal

open Token

variable {b : Char} {cs rest : List Char}

/-- A fraction ends at a character that stops every lexeme. -/
theorem scanFraction_append_stopper (hb : IsStopper b) :
    scanFraction (cs ++ b :: rest) = ((scanFraction cs).1, (scanFraction cs).2 ++ b :: rest) := by
  cases cs with
  | nil => simp [scanFraction, hb.point]
  | cons c cs =>
    by_cases hc : c = '.'
    · subst hc
      simp only [List.cons_append, scanFraction]
      rw [takeWhile_append_cons hb.not_isDigit, dropWhile_append_cons hb.not_isDigit]
    · simp [scanFraction, hc]

/-- The digits of an exponent end at a character that stops every lexeme. -/
theorem scanDigits_append_stopper (hb : IsStopper b) (mark : Char) (sign : Option Char)
    (cs : List Char) : scanDigits mark sign (cs ++ b :: rest) =
      (scanDigits mark sign cs).map fun (e, after) => (e, after ++ b :: rest) := by
  unfold scanDigits
  rw [takeWhile_append_cons hb.not_isDigit, dropWhile_append_cons hb.not_isDigit]
  cases cs.takeWhile Char.isDigit <;> rfl

/-- An exponent that breaks off in front of a stopper breaks off at the end of the text too. -/
theorem scanExponent_append_stopper (hb : IsStopper b) :
    scanExponent (cs ++ b :: rest) =
      (scanExponent cs).map fun (e, after) => (e, after ++ b :: rest) := by
  rcases cs with _ | ⟨c, _ | ⟨s, cs⟩⟩
  · simp [scanExponent, hb.not_isMark]
  · have hnone : scanDigits c none (b :: rest) = none := scanDigits_append_stopper hb c none []
    simp [scanExponent, hb.sign, hnone]
  · simp only [List.cons_append, scanExponent]
    split_ifs
    · exact scanDigits_append_stopper hb c (some s) cs
    · exact scanDigits_append_stopper hb c none (s :: cs)
    · rfl

/-- A literal ends at a character that stops every lexeme. -/
theorem scan_append_stopper (hb : IsStopper b) :
    scan (cs ++ b :: rest) = ((scan cs).1, (scan cs).2 ++ b :: rest) := by
  simp only [scan]
  rw [takeWhile_append_cons hb.not_isDigit, dropWhile_append_cons hb.not_isDigit,
    scanFraction_append_stopper hb]
  simp only [scanExponent_append_stopper hb]
  cases scanExponent (scanFraction (cs.dropWhile Char.isDigit)).2 <;> rfl

end Literal

namespace Token

variable {α : Type} [Scalar α] {start : Nat} {b c : Char} {a cs w rest : List Char}

/-- A lexeme neither goes on behind a stopper nor depends on what stands there. -/
theorem lexeme_append_stopper (hb : IsStopper b) :
    (lexeme c (cs ++ b :: rest) : Except (SyntaxFault α) (Token α) × List Char) = lexeme c cs := by
  unfold lexeme
  rw [← List.cons_append, Literal.scan_append_stopper hb, takeWhile_append_cons hb.part]
  cases cs with
  | nil => simp [hb.star]
  | cons d cs =>
    by_cases hd : d = '*'
    · subst hd
      rfl
    · simp [hd]

/-- A text that ends in front of a stopper is cut as if the stopper were the end. -/
theorem lex_append_stopper (hb : IsStopper b) :
    (lex start (a ++ b :: rest) : Except (Placed (SyntaxFault α)) _) = (do
      let ts ← lex start a
      (lex (start + byteLength a) (b :: rest)).map (ts ++ ·)) := by
  induction a using lex_induction α generalizing start with
  | nil =>
    simp only [lex_nil, bind, Except.bind, List.nil_append, byteLength_nil, Nat.add_zero]
    cases (lex start (b :: rest) : Except (Placed (SyntaxFault α)) _) <;> rfl
  | separator c cs hc ih =>
    rw [List.cons_append, lex_separator hc, lex_separator hc, ih, byteLength_cons, Nat.add_assoc]
  | fault c more behind fault hc hlexeme =>
    have hlexeme' : lexeme c (more ++ (behind ++ b :: rest)) = (.error fault, more) := by
      rw [← List.append_assoc, lexeme_append_stopper hb, hlexeme]
    rw [List.cons_append, List.append_assoc, lex_fault hc hlexeme', lex_fault hc hlexeme]
    rfl
  | token c more behind token hc hlexeme ih =>
    have hlexeme' : lexeme c (more ++ (behind ++ b :: rest)) = (.ok token, more) := by
      rw [← List.append_assoc, lexeme_append_stopper hb, hlexeme]
    rw [List.cons_append, List.append_assoc, lex_token hc hlexeme', lex_token hc hlexeme, ih,
      ← List.cons_append, byteLength_append, ← Nat.add_assoc]
    cases (lex (start + byteLength (c :: more)) behind : Except (Placed (SyntaxFault α)) _) with
    | error failure => rfl
    | ok ts =>
      cases (lex (start + byteLength (c :: more) + byteLength behind) (b :: rest) :
        Except (Placed (SyntaxFault α)) _) <;> rfl

/-- Blanks in front of a text are skipped. -/
theorem lex_blanks (hw : ∀ c ∈ w, isSeparator c = true) :
    (lex start (w ++ cs) : Except (Placed (SyntaxFault α)) _) = lex (start + byteLength w) cs := by
  induction w generalizing start with
  | nil => simp
  | cons c w ih =>
    obtain ⟨hc, hw⟩ := List.forall_mem_cons.mp hw
    rw [List.cons_append, lex_separator hc, ih hw, byteLength_cons, Nat.add_assoc]

/-- Two texts with blanks between them: a failure of the first is the failure of both, and otherwise
the tokens of the first are followed by what the second gives, moved to its place. -/
theorem lex_separated {a b w : List Char} (hne : w ≠ [])
    (hw : ∀ c ∈ w, c ∈ [' ', '\t', '\r', '\n']) (start : Nat) :
    (∀ failure : Placed (SyntaxFault α), lex start a = .error failure →
        lex start (a ++ w ++ b) = .error failure) ∧
      ∀ ts : List (Placed (Token α)), lex start a = .ok ts →
        lex start (a ++ w ++ b) =
          ((lex start b).mapError (Placed.shift (byteLength (a ++ w)))).map
            (ts ++ List.map (Placed.shift (byteLength (a ++ w))) ·) := by
  have hblank : ∀ c ∈ w, isSeparator c = true := fun c hc => isSeparator_iff.mpr (hw c hc)
  obtain ⟨d, w, rfl⟩ := List.exists_cons_of_ne_nil hne
  have hstopper := isStopper_of_isSeparator (hblank d List.mem_cons_self)
  have hcut : (lex start (a ++ d :: (w ++ b)) : Except (Placed (SyntaxFault α)) _) = (do
      let ts ← lex start a
      (lex (start + byteLength a) (d :: (w ++ b))).map (ts ++ ·)) := lex_append_stopper hstopper
  rw [← List.cons_append, ← List.append_assoc, lex_blanks hblank] at hcut
  constructor
  · intro failure hfailure
    rw [hcut, hfailure]
    rfl
  · intro ts hts
    rw [hcut, hts, Nat.add_assoc, ← byteLength_append, lex_shift]
    cases (lex start b : Except (Placed (SyntaxFault α)) _) <;> rfl

/-- The exponent of a literal breaks off at the blanks: `2e` is a number and a name, whatever stands
behind them. -/
theorem lex_separated_exponent :
    [' ', '\n'] ≠ [] ∧ (∀ c ∈ [' ', '\n'], c ∈ [' ', '\t', '\r', '\n']) ∧
      ∃ ts ts' : List (Placed (Token Float)), lex 0 ['2', 'e'] = .ok ts ∧
        lex 0 ['*', '*', '3'] = .ok ts' ∧ ts.map Placed.span = [⟨0, 1⟩, ⟨1, 2⟩] ∧
        lex 0 (['2', 'e'] ++ [' ', '\n'] ++ ['*', '*', '3']) =
          .ok (ts ++ ts'.map (Placed.shift 4)) := by
  have hne : [' ', '\n'] ≠ [] := by decide
  have hblank : ∀ c ∈ [' ', '\n'], c ∈ [' ', '\t', '\r', '\n'] := by simp
  have hspans : ((lex 0 ['2', 'e'] : Except (Placed (SyntaxFault Float)) _).toOption.map
      (List.map Placed.span)) = some [⟨0, 1⟩, ⟨1, 2⟩] := by decide +kernel
  have hsecond : (lex 0 ['*', '*', '3'] : Except (Placed (SyntaxFault Float)) _).isOk = true := by
    decide +kernel
  obtain ⟨ts, hts, hspans⟩ := Option.map_eq_some_iff.mp hspans
  obtain ⟨ts', hts'⟩ := exists_eq_ok_of_isOk hsecond
  rw [toOption_eq_some_iff] at hts
  have hcut := (lex_separated (b := ['*', '*', '3']) hne hblank 0).2 ts hts
  rw [hts'] at hcut
  exact ⟨hne, hblank, ts, ts', hts, hts', hspans, hcut⟩

end Token

end ErrorBudget
