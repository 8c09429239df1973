/-!
# Tables

A table maps keys to values and keeps its keys in the order in which they were first inserted.

    (t.insert k v).find? l = if l = k then some v else t.find? l     (find?_insert)
    (t.erase k).find? l = if l = k then none else t.find? l          (find?_erase)
-/

namespace CasStore

/-- Values by key. -/
@[ext]
structure Table (κ ν : Type) where
  entries : List (κ × ν)
  nodup : (entries.map (·.1)).Nodup
  deriving DecidableEq

namespace Table

variable {κ ν : Type} [DecidableEq κ]

/-! ## Algorithm -/

/-- No entries. -/
def empty : Table κ ν := ⟨[], .nil⟩

/-- The value under `k`. -/
def find? (t : Table κ ν) (k : κ) : Option ν := t.entries.lookup k

/-- There is a value under `k`. -/
def contains (t : Table κ ν) (k : κ) : Bool := (t.find? k).isSome

/-- The number of entries. -/
def size (t : Table κ ν) : Nat := t.entries.length

/-- `v` put under `k` in a list of entries. -/
def putEntry (k : κ) (v : ν) : List (κ × ν) → List (κ × ν)
  | [] => [(k, v)]
  | (l, w) :: es => if l = k then (k, v) :: es else (l, w) :: putEntry k v es

theorem map_fst_putEntry (k : κ) (v : ν) (es : List (κ × ν)) :
    (putEntry k v es).map (·.1) =
      if k ∈ es.map (·.1) then es.map (·.1) else es.map (·.1) ++ [k] := by
  induction es with
  | nil => simp [putEntry]
  | cons e es ih =>
    unfold putEntry
    split
    · next h => simp [h]
    · next h =>
      simp only [List.map_cons, ih, List.mem_cons]
      have : ¬ k = e.1 := fun h' => h h'.symm
      simp only [this, false_or]
      split <;> rfl

/-- `t` with `v` under `k`. -/
def insert (t : Table κ ν) (k : κ) (v : ν) : Table κ ν where
  entries := putEntry k v t.entries
  nodup := by
    rw [map_fst_putEntry]
    split
    · exact t.nodup
    · next h =>
      refine List.nodup_append.2 ⟨t.nodup, by simp, ?_⟩
      intro a ha b hb hab
      exact h (List.mem_singleton.1 hb ▸ hab ▸ ha)

/-- `t` without the entry under `k`. -/
def erase (t : Table κ ν) (k : κ) : Table κ ν where
  entries := t.entries.filter fun (l, _) => l != k
  nodup := t.nodup.sublist (List.filter_sublist.map _)

/-- The entries of a list; of several under one key the last. -/
def ofList (es : List (κ × ν)) : Table κ ν := es.foldl (fun t (k, v) => t.insert k v) empty

/-! ## Lemmas -/

theorem lookup_putEntry (k l : κ) (v : ν) (es : List (κ × ν)) :
    (putEntry k v es).lookup l = if l = k then some v else es.lookup l := by
  induction es with
  | nil =>
    unfold putEntry
    by_cases h : l = k
    · simp [h]
    · have : (l == k) = false := by simpa using h
      simp [List.lookup_cons, this, h]
  | cons e es ih =>
    unfold putEntry
    by_cases he : e.1 = k
    · rw [if_pos he, List.lookup_cons, List.lookup_cons, he]
      by_cases h : l = k
      · simp [h]
      · have : (l == k) = false := by simpa using h
        simp [this, h]
    · rw [if_neg he, List.lookup_cons, List.lookup_cons, ih]
      by_cases hl : l = e.1
      · have : ¬ e.1 = k := he
        simp [hl, this]
      · have : (l == e.1) = false := by simpa using hl
        simp [this]

theorem find?_insert (t : Table κ ν) (k l : κ) (v : ν) :
    (t.insert k v).find? l = if l = k then some v else t.find? l :=
  lookup_putEntry k l v t.entries

theorem find?_erase (t : Table κ ν) (k l : κ) :
    (t.erase k).find? l = if l = k then none else t.find? l := by
  unfold find? erase
  simp only
  induction t.entries with
  | nil => simp
  | cons e es ih =>
    by_cases he : e.1 = k
    · rw [List.filter_cons_of_neg (by simp [he]), ih, List.lookup_cons, he]
      by_cases h : l = k
      · simp [h]
      · have : (l == k) = false := by simpa using h
        simp [this, h]
    · rw [List.filter_cons_of_pos (by simp [he]), List.lookup_cons, List.lookup_cons, ih]
      by_cases hl : l = e.1
      · have : ¬ e.1 = k := he
        simp [hl, this]
      · have : (l == e.1) = false := by simpa using hl
        simp [this]

/-- A new key comes last. -/
theorem entries_insert_of_find?_eq_none {t : Table κ ν} {k : κ} (h : t.find? k = none) (v : ν) :
    (t.insert k v).entries = t.entries ++ [(k, v)] := by
  have hnew := List.lookup_eq_none_iff.1 h
  unfold insert
  dsimp only
  generalize t.entries = es at hnew
  induction es with
  | nil => rfl
  | cons e es ih =>
    have hne : ¬ e.1 = k := fun heq => bne_iff_ne.1 (hnew e (List.mem_cons_self ..)) heq.symm
    unfold putEntry
    rw [if_neg hne, ih fun e' he => hnew e' (List.mem_cons_of_mem _ he)]
    rfl

/-- Where no value is, there is none to take away. -/
theorem erase_of_find?_eq_none {t : Table κ ν} {k : κ} (h : t.find? k = none) : t.erase k = t := by
  refine Table.ext (List.filter_eq_self.2 fun e he => ?_)
  have hne := List.lookup_eq_none_iff.1 h e he
  exact bne_iff_ne.2 fun heq => bne_iff_ne.1 hne heq.symm

end Table

end CasStore
