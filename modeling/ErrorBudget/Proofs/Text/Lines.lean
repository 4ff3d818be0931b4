import ErrorBudget.Text.Blank
import Mathlib.Data.List.Basic

/-!
# Lines of joined texts

The lines of a text that ends at a line feed are followed by the lines of what is put behind it
(`textLines_append`). The first lines of a text, taken with their endings, are a text with just
these lines (`textLines_firstLines`).
-/

set_option autoImplicit false

namespace ErrorBudget

/-- The beginning of a text up to the end of its `n`-th line, or all of it if it has no more
lines. -/
def firstLines : Nat → List Char → List Char
  | 0, _ => []
  | _ + 1, [] => []
  | n + 1, c :: cs => c :: if c = '\n' then firstLines n cs else firstLines (n + 1) cs

section Pieces

variable {p : Char → Bool} {cs : List Char}

/-- A text has at least one piece. -/
theorem pieces_ne_nil (p : Char → Bool) (cs : List Char) : pieces p cs ≠ [] := by
  cases cs with
  | nil => simp [pieces]
  | cons c cs =>
    rw [pieces]
    split_ifs
    · simp
    · split <;> simp

/-- A text without separators is one piece. -/
theorem pieces_of_not_mem {c : Char} (h : c ∉ cs) : pieces (· == c) cs = [cs] := by
  induction cs with
  | nil => rfl
  | cons d cs ih =>
    have hd : (d == c) = false := beq_eq_false_iff_ne.mpr (List.ne_of_not_mem_cons h).symm
    simp [pieces, hd, ih (List.not_mem_of_not_mem_cons h)]

/-- A separator ends a piece, whatever comes next. -/
theorem pieces_append {c : Char} (hc : p c = true) (rest : List Char) :
    pieces p (cs ++ c :: rest) = pieces p cs ++ pieces p rest := by
  induction cs with
  | nil => simp [pieces, hc]
  | cons d cs ih =>
    rw [List.cons_append, pieces, pieces, ih]
    split_ifs
    · rfl
    · cases hfirst : pieces p cs with
      | nil => exact absurd hfirst (pieces_ne_nil p cs)
      | cons piece more => rfl

end Pieces

/-- The lines in front of a line feed are complete. -/
theorem textLines_append_newline (cs rest : List Char) : textLines (cs ++ '\n' :: rest) =
    (pieces (· == '\n') cs).map dropReturn ++ textLines rest := by
  have hne : pieces (· == '\n') rest ≠ [] := pieces_ne_nil _ rest
  have hlast : (pieces (· == '\n') cs ++ pieces (· == '\n') rest).getLast? =
      (pieces (· == '\n') rest).getLast? := by
    rw [List.getLast?_append, List.getLast?_eq_some_getLast hne, Option.some_or]
  simp only [textLines, pieces_append (p := (· == '\n')) (c := '\n') rfl, hlast,
    List.dropLast_append_of_ne_nil hne, List.map_append]
  rw [List.getLast?_eq_some_getLast hne]
  split <;> simp_all

/-- A text without a line feed is one line, unless it is empty. -/
theorem textLines_of_not_mem {cs : List Char} (h : '\n' ∉ cs) :
    textLines cs = if cs = [] then [] else [cs] := by
  cases cs with
  | nil => rfl
  | cons c cs => simp [textLines, pieces_of_not_mem h]

/-- A text that ends at a line feed can be continued by any other. -/
theorem textLines_append {cs : List Char} (h : cs.getLast? = some '\n') (rest : List Char) :
    textLines (cs ++ rest) = textLines cs ++ textLines rest := by
  obtain ⟨before, rfl⟩ := List.getLast?_eq_some_iff.mp h
  have hend : textLines (before ++ ['\n']) = (pieces (· == '\n') before).map dropReturn := by
    rw [textLines_append_newline]
    exact List.append_nil _
  rw [List.append_assoc, List.singleton_append, textLines_append_newline, hend]

/-- The first lines of a text without a line feed are all of it. -/
theorem firstLines_of_not_mem {cs : List Char} (h : '\n' ∉ cs) (n : Nat) :
    firstLines (n + 1) cs = cs := by
  induction cs with
  | nil => rfl
  | cons c cs ih =>
    have hc : ¬c = '\n' := (List.ne_of_not_mem_cons h).symm
    rw [firstLines, if_neg hc, ih (List.not_mem_of_not_mem_cons h)]

/-- The first lines begin with the first line. -/
theorem firstLines_append {cs : List Char} (h : '\n' ∉ cs) (n : Nat) (rest : List Char) :
    firstLines (n + 1) (cs ++ '\n' :: rest) = cs ++ '\n' :: firstLines n rest := by
  induction cs with
  | nil => simp [firstLines]
  | cons c cs ih =>
    have hc : ¬c = '\n' := (List.ne_of_not_mem_cons h).symm
    rw [List.cons_append, firstLines, if_neg hc, ih (List.not_mem_of_not_mem_cons h)]
    rfl

/-- The first lines of a text are its first lines. -/
theorem textLines_firstLines (n : Nat) (cs : List Char) :
    textLines (firstLines n cs) = (textLines cs).take n := by
  induction n generalizing cs with
  | zero => simp [firstLines, textLines, pieces]
  | succ n ih =>
    by_cases hmem : '\n' ∈ cs
    · obtain ⟨line, rest, rfl, hline⟩ := List.eq_append_cons_of_mem hmem
      rw [firstLines_append hline, textLines_append_newline, textLines_append_newline,
        pieces_of_not_mem hline, ih]
      rfl
    · rw [firstLines_of_not_mem hmem, textLines_of_not_mem hmem]
      split_ifs <;> simp

end ErrorBudget
