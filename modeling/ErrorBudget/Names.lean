import Std.Data.ExtTreeMap
import Std.Data.ExtTreeSet

/-!
# Names

Variables, combinations and replacements are kept under their names. A `NameMap` is a finite map
whose keys are listed in the order of their code points, and two maps with the same look-ups are
equal; a `NameSet` is such a set. A `Point` gives numbers to variables: measured values, errors and
constant error components are all points.
-/

set_option autoImplicit false

namespace ErrorBudget

/-- A finite map from names, listed in increasing order of its keys. -/
abbrev NameMap (β : Type) : Type := Std.ExtTreeMap String β

/-- A finite set of names, listed in increasing order. -/
abbrev NameSet : Type := Std.ExtTreeSet String

/-- Numbers assigned to some of the variables. -/
abbrev Point (α : Type) : Type := NameMap α

/-- A map with the entries of a list; of two entries for one name the later one counts. -/
def NameMap.ofEntries {β : Type} (entries : List (String × β)) : NameMap β :=
  Std.ExtTreeMap.ofList entries

/-- The set of the names in a list. -/
def NameSet.ofNames (names : List String) : NameSet :=
  Std.ExtTreeSet.ofList names

/-- The set of some names has exactly these names. -/
@[simp] theorem NameSet.mem_ofNames {x : String} {names : List String} :
    x ∈ NameSet.ofNames names ↔ x ∈ names := by
  simp [NameSet.ofNames]

/-- Names as messages list them: separated by commas. -/
def listed (names : List String) : String :=
  ", ".intercalate names

end ErrorBudget
