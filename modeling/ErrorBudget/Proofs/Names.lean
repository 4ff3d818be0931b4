import ErrorBudget.Names
import Mathlib.Data.List.Induction

/-!
# Look-ups

What is found in maps that are made in several ways, and what maps have in common that find the same
under a name.
-/

set_option autoImplicit false

namespace ErrorBudget

namespace NameMap

variable {β : Type} {m m' : NameMap β} {x : String}

/-- Nothing is found exactly for a name that is no key. -/
theorem getElem?_eq_none_iff : m[x]? = none ↔ x ∉ m := by
  rw [← Std.ExtTreeMap.isSome_getElem?_iff_mem]
  cases m[x]? <;> simp

/-- Something is found exactly for a key. -/
theorem exists_getElem?_iff : (∃ b, m[x]? = some b) ↔ x ∈ m := by
  rw [← Std.ExtTreeMap.isSome_getElem?_iff_mem]
  exact Option.isSome_iff_exists.symm

/-- Maps that agree on a name have it as a key together or not at all. -/
theorem mem_congr (h : m[x]? = m'[x]?) : x ∈ m ↔ x ∈ m' := by
  rw [← Std.ExtTreeMap.isSome_getElem?_iff_mem, ← Std.ExtTreeMap.isSome_getElem?_iff_mem, h]

/-- Maps that agree on a name have the same entry for it, with the same default. -/
theorem getD_congr (h : m[x]? = m'[x]?) (b : β) : m.getD x b = m'.getD x b := by
  rw [Std.ExtTreeMap.getD_eq_getD_getElem?, Std.ExtTreeMap.getD_eq_getD_getElem?, h]

/-- Maps with the same names list them in the same order. -/
theorem keys_eq_of_mem_iff {γ : Type} {m : NameMap β} {m' : NameMap γ}
    (h : ∀ x, x ∈ m ↔ x ∈ m') : m.keys = m'.keys := by
  have hperm : m.keys.Perm m'.keys := by
    refine (List.perm_ext_iff_of_nodup Std.ExtTreeMap.nodup_keys Std.ExtTreeMap.nodup_keys).mpr ?_
    intro x
    rw [Std.ExtTreeMap.mem_keys, Std.ExtTreeMap.mem_keys]
    exact h x
  refine hperm.eq_of_pairwise ?_ Std.ExtTreeMap.ordered_keys Std.ExtTreeMap.ordered_keys
  intro x y _ _ hxy hyx
  exact absurd hyx (Std.OrientedCmp.not_lt_of_lt hxy)

/-- Where two maps do not contradict each other, their union finds what each of them finds. -/
theorem getElem?_union_of_agree
    (h : ∀ (x : String) (a b : β), m[x]? = some a → m'[x]? = some b → a = b) :
    (x ∈ m → (m ∪ m')[x]? = m[x]?) ∧ (x ∈ m' → (m ∪ m')[x]? = m'[x]?) := by
  rw [Std.ExtTreeMap.getElem?_union, ← exists_getElem?_iff, ← exists_getElem?_iff]
  constructor
  · rintro ⟨a, ha⟩
    cases hb : m'[x]? with
    | none => rfl
    | some b => rw [ha, h x a b ha hb, Option.some_or]
  · rintro ⟨b, hb⟩
    rw [hb, Option.some_or]

/-- Nothing is gained from an empty map in front. -/
theorem empty_union (m : NameMap β) : ∅ ∪ m = m := by
  apply Std.ExtTreeMap.ext_getElem?
  simp [Std.ExtTreeMap.getElem?_union]

/-- Nothing is gained from an empty map behind. -/
theorem union_empty (m : NameMap β) : m ∪ ∅ = m := by
  apply Std.ExtTreeMap.ext_getElem?
  simp [Std.ExtTreeMap.getElem?_union]

/-- In a union the entries of the second map count, and so do those inserted into it. -/
theorem union_insert (m m' : NameMap β) (x : String) (b : β) :
    m ∪ m'.insert x b = (m ∪ m').insert x b := by
  refine Std.ExtTreeMap.ext_getElem? fun {y} => ?_
  simp only [Std.ExtTreeMap.getElem?_union, Std.ExtTreeMap.getElem?_insert]
  split_ifs <;> simp

/-- Entries inserted one after another are looked up like one function. -/
theorem getD_foldl_insert (g : String → β) (names : List String) (m : NameMap β) (x : String)
    (b : β) : (names.foldl (fun m y => m.insert y (g y)) m).getD x b =
      if x ∈ names then g x else m.getD x b := by
  induction names generalizing m with
  | nil => simp
  | cons y names ih =>
    rw [List.foldl_cons, ih, Std.ExtTreeMap.getD_insert]
    by_cases hx : x ∈ names
    · simp [hx]
    · by_cases hy : y = x
      · simp [hy]
      · have hne : x ≠ y := fun h => hy h.symm
        simp [hx, hy, hne]

/-- The last entry of a name is the one that counts. -/
theorem getElem?_ofEntries_append (entries : List (String × β)) (y : String) (b : β) :
    (ofEntries (entries ++ [(y, b)]))[x]? = if y = x then some b else (ofEntries entries)[x]? := by
  simp [ofEntries, Std.ExtTreeMap.ofList_eq_insertMany_empty, Std.ExtTreeMap.insertMany_append,
    Std.ExtTreeMap.getElem?_insert]

/-- What is found under a name stands in an entry. -/
theorem mem_of_getElem?_ofEntries {entries : List (String × β)} {b : β}
    (h : (ofEntries entries)[x]? = some b) : (x, b) ∈ entries := by
  -- The last entry for a name counts, so the induction takes entries from the end.
  induction entries using List.reverseRecOn with
  | nil => simp [ofEntries] at h
  | append_singleton entries entry ih =>
    rw [getElem?_ofEntries_append] at h
    split at h
    · rename_i hname
      obtain rfl := hname
      obtain rfl := Option.some.inj h
      exact List.mem_append_right _ (List.mem_singleton_self _)
    · exact List.mem_append_left _ (ih h)

section Entries

variable {names : NameSet} (g : String → β)

/-- A map with an entry for each name of a set. -/
theorem mem_ofEntries_map : x ∈ ofEntries (names.toList.map fun y => (y, g y)) ↔ x ∈ names := by
  simp [ofEntries, Std.ExtTreeMap.mem_ofList]

/-- The entry of a name that is listed is the one that is computed for it. -/
theorem getElem?_ofEntries_map (hx : x ∈ names) :
    (ofEntries (names.toList.map fun y => (y, g y)))[x]? = some (g x) := by
  have hnames : names.toList.Pairwise fun y z => ¬compare y z = .eq :=
    Std.ExtTreeSet.distinct_toList
  have hdistinct : (names.toList.map fun y => (y, g y)).Pairwise
      fun a b => ¬compare a.1 b.1 = .eq :=
    List.pairwise_map.mpr hnames
  have hmem : (x, g x) ∈ names.toList.map fun y => (y, g y) :=
    List.mem_map_of_mem (Std.ExtTreeSet.mem_toList.mpr hx)
  exact Std.ExtTreeMap.getElem?_ofList_of_mem (by simp) hdistinct hmem

/-- Every entry is the one that is computed for its name. -/
theorem eq_of_getElem?_ofEntries_map {b : β}
    (h : (ofEntries (names.toList.map fun y => (y, g y)))[x]? = some b) : b = g x := by
  have hx : x ∈ names := (mem_ofEntries_map g).mp (exists_getElem?_iff.mp ⟨b, h⟩)
  exact Option.some.inj (h.symm.trans (getElem?_ofEntries_map g hx))

end Entries

end NameMap

end ErrorBudget
