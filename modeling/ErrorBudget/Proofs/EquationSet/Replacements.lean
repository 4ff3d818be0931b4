import ErrorBudget.Proofs.Definition
import ErrorBudget.Proofs.EquationSet.Steps
import ErrorBudget.Proofs.Parser.Names
import ErrorBudget.Proofs.Substitution

/-!
# Replacements that a definition declares

A line under the names of a definition is an entry (`NameEntry`): its key must be read as a
variable, but it need not be the name of the variable, since `(r)` and `+r` are read as `r` too. A
definition keeps each replacement under the key of its line, and replaces what it finds under the
name of a variable. So an entry has an effect only if its key is plain (`equations_of_load`), and
all entries have theirs if all keys are.
-/

set_option autoImplicit false

namespace ErrorBudget

namespace Definition

variable {α : Type} [Scalar α]

section Entries

variable {line : List Char} {n : NameEntry α} {entries : List (NameEntry α)} {x : String}

/-- A key that is the name of a variable is plain. -/
theorem ReadsEntry.name_eq (h : ReadsEntry line n) (hkey : Expr.IsVariableName n.key) :
    n.name = n.key := by
  obtain ⟨new, -, hparse, -⟩ := h
  rw [Expr.parse_name hkey] at hparse
  exact (Expr.symbol.inj (Except.ok.inj hparse)).symm

/-- Under the name of a variable, what is kept is what the plain entries declare. -/
theorem getElem?_kept (hentries : ∀ n ∈ entries, ∃ line, ReadsEntry line n)
    (hx : Expr.IsVariableName x) :
    (NameEntry.kept entries)[x]? = (NameEntry.declared (entries.filter NameEntry.isPlain))[x]? := by
  -- The last entry for a name counts, so the induction takes entries from the end.
  induction entries using List.reverseRecOn with
  | nil => rfl
  | append_singleton entries n ih =>
    have hinit := ih fun n hn => hentries n (List.mem_append_left _ hn)
    obtain ⟨line, hline⟩ := hentries n (by simp)
    have hkept : (NameEntry.kept (entries ++ [n]))[x]? =
        if n.key = x then some n.replacement else (NameEntry.kept entries)[x]? := by
      simpa [NameEntry.kept] using NameMap.getElem?_ofEntries_append _ n.key n.replacement
    rw [hkept, hinit, List.filter_append]
    by_cases hplain : n.isPlain = true
    · have hkey : n.key = n.name := of_decide_eq_true hplain
      simp [NameEntry.declared, hplain, NameMap.getElem?_ofEntries_append, hkey]
    · have hkey : n.key ≠ x := by
        rintro rfl
        exact hplain (decide_eq_true (hline.name_eq hx).symm)
      simp [hplain, hkey]

/-- An expression that was read is replaced as the plain entries declare. -/
theorem substitute_kept {e : Expr α} (hentries : ∀ n ∈ entries, ∃ line, ReadsEntry line n)
    (he : e.LeavesIn Expr.IsVariableName fun _ => True) :
    e.substitute (NameEntry.kept entries) =
      e.substitute (NameEntry.declared (entries.filter NameEntry.isPlain)) := by
  refine Expr.substitute_eq_iff.mpr fun x hx => ?_
  exact NameMap.getD_congr (getElem?_kept hentries (he.of_contains hx)) _

omit [Scalar α] in
/-- A variable that is replaced occurs afterwards only where a replacement contains it. -/
theorem exists_replacement_of_contains {e : Expr α} (hn : n ∈ entries)
    (h : (e.substitute (NameEntry.declared entries)).contains n.name = true) :
    ∃ n' ∈ entries, n'.replacement.contains n.name = true := by
  obtain ⟨y, -, hy⟩ := Expr.contains_substitute.mp h
  rw [Std.ExtTreeMap.getD_eq_getD_getElem?] at hy
  cases hfound : (NameEntry.declared entries)[y]? with
  | some e' =>
    obtain ⟨n', hn', -, rfl⟩ := exists_of_getElem?_declared hfound
    exact ⟨n', hn', by simpa [hfound] using hy⟩
  | none =>
    -- A variable without a replacement is itself, but this one has one.
    obtain rfl : y = n.name := by simpa [hfound, Expr.contains] using hy
    exact absurd (mem_declared.mpr ⟨n, hn, rfl⟩) (NameMap.getElem?_eq_none_iff.mp hfound)

end Entries

end Definition

namespace Equation

variable {α : Type} [Scalar α]

/-- An equation that is made of an expression contains the variables of the expression. -/
theorem contains_ofExpr (label : String) (e : Expr α) (x : String) :
    (ofExpr label e).contains x = e.contains x := by
  rw [Bool.eq_iff_iff, Expr.contains_iff_mem_vars]
  exact Std.ExtTreeMap.contains_iff_mem.trans (NameMap.mem_ofEntries_map _)

/-- Two expressions that make the same equation are the same. -/
theorem ofExpr_inj {label : String} {e e' : Expr α} :
    ofExpr label e = ofExpr label e' ↔ e = e' := by
  constructor
  · intro h
    exact (Equation.symbolic.inj h).2.1
  · rintro rfl
    rfl

end Equation

namespace EquationSet

open Definition

variable {α : Type} [Scalar α] {l : Limits} {text : String} {s : EquationSet α}

/-- Whether a set stores the equations of a text with all its entries taking effect: with the
variable of each entry replaced, where the text declares no later entry for it. -/
def TakesNames (s : EquationSet α) (text : String) : Prop :=
  ∀ texts entries es, Declares text texts entries → AreRead s.limits texts es →
    s.equations.toList = madeFrom (NameEntry.declared entries) texts es

/-- A list of texts is read as one list of expressions only. -/
theorem AreRead.unique {texts : List String} {es es' : List (Expr α)} (h : AreRead l texts es)
    (h' : AreRead l texts es') : es = es' :=
  List.right_unique_forall₂' (fun _ _ _ he he' => Except.ok.inj (he.symm.trans he')) h h'

/-- Two sets of replacements make the same equations if they have the same effect on each expression
that was read. -/
theorem madeFrom_eq_iff {names names' : NameMap (Expr α)} {texts : List String}
    {es : List (Expr α)} (h : AreRead l texts es) :
    madeFrom names texts es = madeFrom names' texts es ↔
      ∀ e ∈ es, e.substitute names = e.substitute names' := by
  induction h with
  | nil => simp [madeFrom]
  | cons _ _ ih =>
    simp only [madeFrom, List.zipWith_cons_cons, List.cons.injEq, Equation.ofExpr_inj,
      List.forall_mem_cons] at ih ⊢
    rw [ih]

/-- What a loaded text stores is its equations with the variables of its plain entries replaced. -/
theorem exists_madeFrom_of_load (h : (({} : EquationSet α).withLimits l).load text = .ok s) :
    s.limits = l ∧ ∃ texts entries es, Declares text texts entries ∧ AreRead l texts es ∧
      s.equations.toList =
        madeFrom (NameEntry.declared (entries.filter NameEntry.isPlain)) texts es := by
  obtain ⟨d, es, hd, hes, -, rfl⟩ := load_eq_ok_iff.mp h
  obtain ⟨entries, hdeclares, hnames⟩ := declares_of_parse hd
  have hread : ∀ e ∈ es, e.LeavesIn Expr.IsVariableName fun _ => True := by
    intro e he
    obtain ⟨text', htext'⟩ := exists_of_forall₂ hes e he
    exact Expr.leavesIn_of_parseEquation htext'
  have hplain : madeFrom d.names d.equations es =
      madeFrom (NameEntry.declared (entries.filter NameEntry.isPlain)) d.equations es := by
    rw [madeFrom_eq_iff hes, hnames]
    exact fun e he => substitute_kept hdeclares.exists_line (hread e he)
  refine ⟨rfl, d.equations, entries, es, hdeclares, hes, ?_⟩
  simpa [loaded, withLimits, NameMap.empty_union] using hplain

section Stored

variable {names : NameMap (Expr α)} {texts : List String} {entries : List (NameEntry α)}
  {es : List (Expr α)}

/-- All entries of a text take effect exactly if they declare no more than what was replaced. -/
theorem takesNames_iff (hdeclares : Declares text texts entries) (hes : AreRead s.limits texts es)
    (hstored : s.equations.toList = madeFrom names texts es) :
    s.TakesNames text ↔ ∀ e ∈ es, ∀ x, e.contains x = true →
      names.getD x (.symbol x) = (NameEntry.declared entries).getD x (.symbol x) := by
  simp only [← Expr.substitute_eq_iff]
  rw [← madeFrom_eq_iff hes, ← hstored]
  constructor
  · intro htakes
    exact htakes _ _ _ hdeclares hes
  · intro heq texts' entries' es' hdeclares' hes'
    obtain ⟨rfl, rfl⟩ := hdeclares.unique hdeclares'
    obtain rfl := AreRead.unique hes hes'
    exact heq

/-- A replaced variable is in a stored equation only if a replacement contains it. -/
theorem exists_replacement_of_stored (hes : AreRead l texts es)
    (hstored : s.equations.toList = madeFrom (NameEntry.declared entries) texts es)
    {n : NameEntry α} (hn : n ∈ entries) {eq : Equation α} (heq : eq ∈ s.equations.toList)
    (hcontains : eq.contains n.name = true) :
    ∃ n' ∈ entries, n'.replacement.contains n.name = true := by
  rw [hstored] at heq
  obtain ⟨text', e, -, rfl⟩ := mem_madeFrom hes heq
  rw [Equation.contains_ofExpr] at hcontains
  exact exists_replacement_of_contains hn hcontains

end Stored

/-- What a loaded text stores is its equations with the variables of its plain entries replaced. All
entries take effect exactly if the others declare nothing else for a variable that occurs. A
variable that is replaced occurs in nothing that is stored, unless a replacement contains it. -/
theorem equations_of_load (h : (({} : EquationSet α).withLimits l).load text = .ok s) :
    ∃ texts entries es, Declares text texts entries ∧ AreRead l texts es ∧
      s.equations.toList =
        madeFrom (NameEntry.declared (entries.filter NameEntry.isPlain)) texts es ∧
      (s.TakesNames text ↔ ∀ e ∈ es, ∀ x, e.contains x = true →
        (NameEntry.declared (entries.filter NameEntry.isPlain)).getD x (.symbol x) =
          (NameEntry.declared entries).getD x (.symbol x)) ∧
      ∀ n ∈ entries, n.isPlain = true → ∀ eq ∈ s.equations.toList, eq.contains n.name = true →
        ∃ n' ∈ entries, n'.replacement.contains n.name = true := by
  obtain ⟨hlimits, texts, entries, es, hdeclares, hes, hstored⟩ := exists_madeFrom_of_load h
  refine ⟨texts, entries, es, hdeclares, hes, hstored, takesNames_iff hdeclares ?_ hstored, ?_⟩
  · rwa [hlimits]
  · intro n hn hplain eq heq hcontains
    obtain ⟨n', hn', hreplacement⟩ :=
      exists_replacement_of_stored hes hstored (List.mem_filter.mpr ⟨hn, hplain⟩) heq hcontains
    exact ⟨n', List.mem_of_mem_filter hn', hreplacement⟩

/-- The names of a definition hold for the equations above them too. -/
theorem equations_of_load_diameter :
    let text := "[equations]\nA = pi*r**2\n[names]\nr: d/2\n"
    ∃ s : EquationSet Float, (({} : EquationSet Float).withLimits {}).load text = .ok s ∧
      ∃ texts entries es, Declares text texts entries ∧ AreRead {} texts es ∧
        s.equations.toList =
          madeFrom (NameEntry.declared (entries.filter NameEntry.isPlain)) texts es ∧
        (s.TakesNames text ↔ ∀ e ∈ es, ∀ x, e.contains x = true →
          (NameEntry.declared (entries.filter NameEntry.isPlain)).getD x (.symbol x) =
            (NameEntry.declared entries).getD x (.symbol x)) ∧
        ∀ n ∈ entries, n.isPlain = true → ∀ eq ∈ s.equations.toList, eq.contains n.name = true →
          ∃ n' ∈ entries, n'.replacement.contains n.name = true := by
  intro text
  have hok : ((({} : EquationSet Float).withLimits {}).load text).isOk = true := by decide +kernel
  obtain ⟨s, hs⟩ := exists_eq_ok_of_isOk hok
  exact ⟨s, hs, equations_of_load hs⟩

/-- A key in parentheses is read as a variable, but its entry has no effect. -/
theorem not_takesNames_of_parentheses :
    ¬∀ (text : String) (s : EquationSet Float),
      (({} : EquationSet Float).withLimits {}).load text = .ok s → s.TakesNames text := by
  intro hall
  let text := "[equations]\nA = r\n[names]\n(r): d\n"
  have hok : ((({} : EquationSet Float).withLimits {}).load text).isOk = true := by decide +kernel
  obtain ⟨s, hs⟩ := exists_eq_ok_of_isOk hok
  obtain ⟨hlimits, texts, entries, es, hdeclares, hes, hstored⟩ := exists_madeFrom_of_load hs
  have htakes := takesNames_iff hdeclares (hlimits ▸ hes) hstored
  obtain ⟨htexts, hentries⟩ := hdeclares
  -- The text has one line in each section.
  have hequations : (linesUnder .equations none (textLines text.toList)).map String.ofList =
      ["A = r"] := by decide +kernel
  have hnames : linesUnder .names none (textLines text.toList) = ["(r): d".toList] := by
    decide +kernel
  rw [hequations] at htexts
  rw [hnames] at hentries
  subst htexts
  obtain ⟨n, rest, ⟨new, hentry, hkey, hnew⟩, hrest, rfl⟩ := List.forall₂_cons_left_iff.mp hentries
  obtain rfl := List.forall₂_nil_left_iff.mp hrest
  obtain ⟨e, rest, he, -, rfl⟩ := List.forall₂_cons_left_iff.mp hes
  have hsplit : (entry (α := Float) "(r): d".toList).toOption = some ("(r)", ['d']) := by
    decide +kernel
  rw [hentry] at hsplit
  obtain ⟨hparentheses, rfl⟩ : n.key = "(r)" ∧ new = ['d'] := by
    simpa [Except.toOption] using hsplit
  have hname : n.name = "r" := by
    have hread : (Expr.parse "(r)" : Except (ParseError Float) (Expr Float)).toOption.all
        (·.contains "r") = true := by decide +kernel
    rw [hparentheses] at hkey
    simpa [Expr.contains] using all_toOption_iff.mp hread _ hkey
  have hvariable : e.contains "r" = true := by
    have hread : (Expr.parseEquation {} "A = r" : Except (Error Float) (Expr Float)).toOption.all
        (·.contains "r") = true := by decide +kernel
    exact all_toOption_iff.mp hread _ he
  have hreplacement : n.replacement.contains "r" = false := by
    have hread : (Expr.parse "d" : Except (ParseError Float) (Expr Float)).toOption.all
        (fun e => !e.contains "r") = true := by decide +kernel
    simpa using all_toOption_iff.mp hread _ hnew
  -- The entry declares a replacement, but is not plain.
  have heffect := htakes.mp (hall _ s hs) e List.mem_cons_self "r" hvariable
  have hplain : n.isPlain = false := by simp [NameEntry.isPlain, hparentheses, hname]
  have hsymbol : Expr.symbol "r" = n.replacement := by
    simpa [NameEntry.declared, NameMap.ofEntries, hplain, hname] using heffect
  rw [← hsymbol] at hreplacement
  simp [Expr.contains] at hreplacement

end EquationSet

end ErrorBudget
