import ErrorBudget.Proofs.Outcome
import ErrorBudget.Token.Lexer

/-!
# Steps of the lexer

At its front a text has a separator, which is skipped, or a lexeme, which gives a token or a
failure. Every text is made up of such steps (`Token.lex_induction`), and what the lexer does at
each of them has a law of its own, without the remark that a lexeme is a part of the text. Where the
text starts plays no part but for the places of what is found (`Token.lex_shift`).
-/

set_option autoImplicit false

namespace ErrorBudget

/-- Nothing has no bytes. -/
@[simp] theorem byteLength_nil : byteLength [] = 0 := rfl

/-- The bytes of a character come on top of those behind it. -/
@[simp] theorem byteLength_cons (c : Char) (cs : List Char) :
    byteLength (c :: cs) = c.utf8Size + byteLength cs := rfl

/-- The bytes of two pieces add up. -/
@[simp] theorem byteLength_append (cs cs' : List Char) :
    byteLength (cs ++ cs') = byteLength cs + byteLength cs' := by
  induction cs with
  | nil => simp
  | cons c cs ih => simp only [List.cons_append, byteLength_cons, ih, Nat.add_assoc]

/-- A span moved to the right by `k` bytes. -/
def Span.shift (k : Nat) (s : Span) : Span := ⟨s.start + k, s.stop + k⟩

/-- Something read from a text, when `k` bytes are put in front of the text. -/
def Placed.shift {β : Type} (k : Nat) (p : Placed β) : Placed β := ⟨p.item, p.span.shift k⟩

namespace Token

variable {α : Type} [Scalar α] {start : Nat} {c : Char} {cs more rest : List Char}

section Laws

/-- There is no token in an empty text. -/
theorem lex_nil : (lex start [] : Except (Placed (SyntaxFault α)) _) = .ok [] := by
  rw [lex]

/-- A separator is skipped. -/
theorem lex_separator (hc : isSeparator c = true) :
    (lex start (c :: cs) : Except (Placed (SyntaxFault α)) _) =
      lex (start + c.utf8Size) cs := by
  rw [lex, if_pos hc]

/-- A text fails at the first lexeme that is no token. -/
theorem lex_fault {fault : SyntaxFault α} (hc : isSeparator c = false)
    (h : lexeme c (more ++ rest) = (.error fault, more)) :
    lex start (c :: (more ++ rest)) =
      .error ⟨fault, ⟨start, start + byteLength (c :: more)⟩⟩ := by
  rw [lex, if_neg (Bool.not_eq_true _ ▸ hc), h]

/-- A token is followed by those of the characters behind it. -/
theorem lex_token {token : Token α} (hc : isSeparator c = false)
    (h : lexeme c (more ++ rest) = (.ok token, more)) :
    lex start (c :: (more ++ rest)) = (lex (start + byteLength (c :: more)) rest).map
      (⟨token, ⟨start, start + byteLength (c :: more)⟩⟩ :: ·) := by
  rw [lex, if_neg (Bool.not_eq_true _ ▸ hc), h]
  simp only [List.drop_left]
  cases (lex (start + byteLength (c :: more)) rest : Except (Placed (SyntaxFault α)) _) <;> rfl

end Laws

/-- What a lexeme takes behind its first character is the beginning of what stands there. -/
theorem isPrefix_of_lexeme {result : Except (SyntaxFault α) (Token α)}
    (h : lexeme c cs = (result, more)) : more <+: cs := by
  have hprefix := lexeme_isPrefix (α := α) c cs
  rwa [h] at hprefix

/-- Induction along the steps of the lexer: what holds of the empty text, and of a text if it holds
behind the separator or the token at its front, holds of every text. -/
@[elab_as_elim]
theorem lex_induction (α : Type) [Scalar α] {motive : List Char → Prop} (cs : List Char)
    (nil : motive [])
    (separator : ∀ c cs, isSeparator c = true → motive cs → motive (c :: cs))
    (fault : ∀ c more rest (fault : SyntaxFault α), isSeparator c = false →
      lexeme c (more ++ rest) = (.error fault, more) → motive (c :: (more ++ rest)))
    (token : ∀ c more rest (token : Token α), isSeparator c = false →
      lexeme c (more ++ rest) = (.ok token, more) → motive rest → motive (c :: (more ++ rest))) :
    motive cs := by
  induction hlength : cs.length using Nat.strongRecOn generalizing cs with
  | _ n ih =>
    cases cs with
    | nil => exact nil
    | cons c cs =>
      rw [List.length_cons] at hlength
      cases hc : isSeparator c with
      | true => exact separator c cs hc (ih cs.length (by omega) cs rfl)
      | false =>
        cases hlexeme : (lexeme c cs : Except (SyntaxFault α) (Token α) × List Char) with
        | mk result more =>
          obtain ⟨rest, rfl⟩ := isPrefix_of_lexeme hlexeme
          rw [List.length_append] at hlength
          cases result with
          | error failure => exact fault c more rest failure hc hlexeme
          | ok found =>
            exact token c more rest found hc hlexeme (ih rest.length (by omega) rest rfl)

/-- What a text is cut into does not depend on where it starts, only the places do. -/
theorem lex_shift (k start : Nat) (cs : List Char) :
    (lex (start + k) cs : Except (Placed (SyntaxFault α)) _) =
      ((lex start cs).mapError (Placed.shift k)).map (List.map (Placed.shift k)) := by
  induction cs using lex_induction α generalizing start with
  | nil => simp only [lex_nil, Except.mapError, Except.map, List.map_nil]
  | separator c cs hc ih =>
    rw [lex_separator hc, lex_separator hc, ← ih, Nat.add_right_comm]
  | fault c more rest fault hc hlexeme =>
    rw [lex_fault hc hlexeme, lex_fault hc hlexeme]
    simp only [Except.mapError, Except.map, Placed.shift, Span.shift, Nat.add_right_comm]
  | token c more rest token hc hlexeme ih =>
    rw [lex_token hc hlexeme, lex_token hc hlexeme, Nat.add_right_comm start k, ih]
    cases (lex (start + byteLength (c :: more)) rest : Except (Placed (SyntaxFault α)) _) <;> rfl

end Token

end ErrorBudget
