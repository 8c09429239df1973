/-!
# Keys and versions

A document is stored under a non-empty key and carries the version its last write was given.  Version 0
is no version: where one is read it means that there is none, and where one is demanded it demands
nothing.
-/

namespace CasStore

/-- The name of a document.  It is not empty. -/
structure Key where
  value : String
  ne_empty : value ≠ ""
  deriving DecidableEq

/-- The key named `s`, unless `s` is empty. -/
def Key.ofString? (s : String) : Option Key :=
  if h : s = "" then none else some ⟨s, h⟩

/-- The mark of one write.  Later writes have greater marks. -/
structure Version where
  number : Int
  deriving DecidableEq, Repr

/-- The version that no write is given. -/
def Version.none : Version := ⟨0⟩

/-- `v` marks a write. -/
def Version.isSet (v : Version) : Bool := v.number != 0

/-- What is stored under a key. -/
structure Document where
  content : String
  version : Version
  deriving DecidableEq, Repr

/-! ## Lemmas -/

@[ext] theorem Key.ext {k l : Key} (h : k.value = l.value) : k = l := by
  cases k; cases l; cases h; rfl

theorem Key.ofString?_value (k : Key) : Key.ofString? k.value = some k := by
  simp [Key.ofString?, k.ne_empty]

end CasStore
