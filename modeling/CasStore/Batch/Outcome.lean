/-!
# Outcomes of a batch

An outcome names the positions that succeeded and lists the failures, each with its position and its
cause.  Outcomes are combined position by position: a position that the first operand records as failed
keeps the records it has there.

    (a.combine b).succeeded = a.succeeded ∪ b.succeeded             (mem_succeeded_combine)
    (a.combine b).failures = a.failures, then those of b whose position a does not record
-/

namespace CasStore

/-- A set of positions, listed in ascending order. -/
structure IndexSet where
  toList : List Int
  sorted : toList.Pairwise (· < ·)
  deriving DecidableEq

namespace IndexSet

/-! ## Algorithm -/

instance : Membership Int IndexSet := ⟨fun s i => i ∈ s.toList⟩

/-- No position. -/
def empty : IndexSet := ⟨[], .nil⟩

/-- `i` put in its place in an ascending list. -/
def insertSorted (i : Int) : List Int → List Int
  | [] => [i]
  | j :: js => if i < j then i :: j :: js else if i = j then j :: js else j :: insertSorted i js

theorem mem_insertSorted {i k : Int} {js : List Int} : k ∈ insertSorted i js ↔ k = i ∨ k ∈ js := by
  induction js with
  | nil => simp [insertSorted]
  | cons j js ih =>
    unfold insertSorted
    split
    · simp
    split
    · next h => subst h; simp
    · simp only [List.mem_cons, ih]
      constructor
      · rintro (h | h | h) <;> simp [h]
      · rintro (h | h | h) <;> simp [h]

theorem insertSorted_sorted {i : Int} {js : List Int} (h : js.Pairwise (· < ·)) :
    (insertSorted i js).Pairwise (· < ·) := by
  induction js with
  | nil => simp [insertSorted]
  | cons j js ih =>
    have ⟨hj, hjs⟩ := List.pairwise_cons.1 h
    unfold insertSorted
    split
    · next hij =>
      refine List.pairwise_cons.2 ⟨fun k hk => ?_, h⟩
      rcases List.mem_cons.1 hk with rfl | hk
      · exact hij
      · exact Int.lt_trans hij (hj k hk)
    split
    · exact h
    · next h1 h2 =>
      refine List.pairwise_cons.2 ⟨fun k hk => ?_, ih hjs⟩
      rcases mem_insertSorted.1 hk with rfl | hk
      · omega
      · exact hj k hk

/-- `s` with the position `i`. -/
def insert (s : IndexSet) (i : Int) : IndexSet :=
  ⟨insertSorted i s.toList, insertSorted_sorted s.sorted⟩

/-- The positions of a list. -/
def ofList (is : List Int) : IndexSet := is.foldl insert empty

/-- The positions of either set. -/
def union (s t : IndexSet) : IndexSet := t.toList.foldl insert s

/-! ## Lemmas -/

theorem mem_insert {s : IndexSet} {i k : Int} : k ∈ s.insert i ↔ k = i ∨ k ∈ s :=
  mem_insertSorted

theorem mem_foldl_insert {is : List Int} {s : IndexSet} {k : Int} :
    k ∈ is.foldl insert s ↔ k ∈ s ∨ k ∈ is := by
  induction is generalizing s with
  | nil => simp
  | cons i is ih =>
    rw [List.foldl_cons, ih, mem_insert, List.mem_cons]
    constructor
    · rintro ((h | h) | h) <;> simp [h]
    · rintro (h | h | h) <;> simp [h]

theorem mem_union {s t : IndexSet} {k : Int} : k ∈ s.union t ↔ k ∈ s ∨ k ∈ t :=
  mem_foldl_insert

theorem sorted_ext : ∀ {is js : List Int}, is.Pairwise (· < ·) → js.Pairwise (· < ·) →
    (∀ k, k ∈ is ↔ k ∈ js) → is = js
  | [], [], _, _, _ => rfl
  | [], j :: _, _, _, h => by simpa using (h j).2
  | i :: _, [], _, _, h => by simpa using (h i).1
  | i :: is, j :: js, hi, hj, h => by
    have ⟨hi1, hi2⟩ := List.pairwise_cons.1 hi
    have ⟨hj1, hj2⟩ := List.pairwise_cons.1 hj
    have hij : i = j := by
      rcases List.mem_cons.1 ((h i).1 List.mem_cons_self) with e | hm
      · exact e
      rcases List.mem_cons.1 ((h j).2 List.mem_cons_self) with e | hm'
      · exact e.symm
      have := hj1 i hm
      have := hi1 j hm'
      omega
    subst hij
    congr 1
    refine sorted_ext hi2 hj2 fun k => ⟨fun hk => ?_, fun hk => ?_⟩
    · rcases List.mem_cons.1 ((h k).1 (List.mem_cons_of_mem _ hk)) with rfl | hm
      · exact absurd (hi1 k hk) (Int.lt_irrefl k)
      · exact hm
    · rcases List.mem_cons.1 ((h k).2 (List.mem_cons_of_mem _ hk)) with rfl | hm
      · exact absurd (hj1 k hk) (Int.lt_irrefl k)
      · exact hm

/-- Two sets with the same positions are one. -/
@[ext] theorem ext {s t : IndexSet} (h : ∀ k, k ∈ s ↔ k ∈ t) : s = t := by
  cases s; cases t
  congr
  exact sorted_ext ‹_› ‹_› h

end IndexSet

/-- One item's failure: its position and what went wrong. -/
structure ItemFailure (ε : Type) where
  index : Int
  cause : ε
  deriving DecidableEq

/-- What a batch did. -/
@[ext]
structure Outcome (ε : Type) where
  succeeded : IndexSet
  failures : List (ItemFailure ε)
  deriving DecidableEq

namespace Outcome

variable {ε : Type}

/-! ## Algorithm -/

/-- The outcome of no items. -/
def empty : Outcome ε := ⟨.empty, []⟩

/-- The item at `i` succeeded. -/
def success (i : Int) : Outcome ε := ⟨IndexSet.empty.insert i, []⟩

/-- The item at `i` failed. -/
def failure (i : Int) (cause : ε) : Outcome ε := ⟨.empty, [⟨i, cause⟩]⟩

/-- The positions of the failures, as recorded. -/
def failedIndices (o : Outcome ε) : List Int := o.failures.map (·.index)

/-- Both outcomes in one; where both record a failure of one position, the first one's records stay. -/
def combine (a b : Outcome ε) : Outcome ε where
  succeeded := a.succeeded.union b.succeeded
  failures := a.failures ++ b.failures.filter fun f => !a.failedIndices.contains f.index

/-- The outcomes combined from the left. -/
def sum (os : List (Outcome ε)) : Outcome ε := os.foldl combine empty

/-- Nothing failed. -/
def isSuccess (o : Outcome ε) : Bool := o.failures.isEmpty

/-- The number of successes and failure records. -/
def total (o : Outcome ε) : Nat := o.succeeded.toList.length + o.failures.length

/-- Each failed position once, in the order recorded, with the cause recorded last for it. -/
def causes (o : Outcome ε) : List (ItemFailure ε) :=
  o.failedIndices.eraseDups.filterMap fun i => o.failures.reverse.find? (·.index == i)

/-! ## Lemmas -/

theorem mem_succeeded_combine {a b : Outcome ε} {k : Int} :
    k ∈ (a.combine b).succeeded ↔ k ∈ a.succeeded ∨ k ∈ b.succeeded :=
  IndexSet.mem_union

theorem failedIndices_combine (a b : Outcome ε) :
    (a.combine b).failedIndices =
      a.failedIndices ++ b.failedIndices.filter fun i => !a.failedIndices.contains i := by
  simp [failedIndices, combine, List.filter_map, Function.comp_def]

end Outcome

end CasStore
