import CasStore.Batch.Outcome

/-!
# Combining outcomes

Outcomes are combined in any grouping, the outcome of no items changes nothing, and neither does an
outcome that is combined with itself.  Of each position the records of the first operand stay that has
any.  An outcome may be moved to later positions, before or after it is combined.

    (a.combine b).combine c = a.combine (b.combine c)                (combine_assoc)
    a.combine a = a                                                  (combine_self)
    the records of a position are those of the first that has any    (recordsAt_sum)
    a.combine b and b.combine a agree but for order, where no position failed in both  (combine_perm)
    all of it together                                               (outcome_laws)
    (a.combine b).shift n = (a.shift n).combine (b.shift n)          (shift_combine)
    sum (o :: os) = o.combine (sum os)                               (sum_cons)
-/

namespace CasStore

/-! ## Algorithm -/

/-- The positions, each of them `n` further on. -/
def IndexSet.shift (n : Int) (s : IndexSet) : IndexSet where
  toList := s.toList.map (· + n)
  sorted := List.pairwise_map.2 (s.sorted.imp fun h => Int.add_lt_add_right h n)

/-- The outcome of items that stand `n` further on. -/
def Outcome.shift {ε : Type} (n : Int) (o : Outcome ε) : Outcome ε where
  succeeded := o.succeeded.shift n
  failures := o.failures.map fun f => ⟨f.index + n, f.cause⟩

/-- The failure records of the position `i`, in their order. -/
def Outcome.recordsAt {ε : Type} (o : Outcome ε) (i : Int) : List (ItemFailure ε) :=
  o.failures.filter (·.index == i)

/-! ## Lemmas -/

namespace IndexSet

theorem mem_shift {n i : Int} {s : IndexSet} : i ∈ s.shift n ↔ i - n ∈ s := by
  show i ∈ s.toList.map (· + n) ↔ i - n ∈ s.toList
  rw [List.mem_map]
  constructor
  · rintro ⟨j, hj, rfl⟩
    rwa [Int.add_sub_cancel]
  · exact fun h => ⟨i - n, h, Int.sub_add_cancel i n⟩

end IndexSet

namespace Outcome

variable {ε : Type}

theorem combine_empty (a : Outcome ε) : a.combine empty = a :=
  Outcome.ext rfl (List.append_nil a.failures)

theorem empty_combine (a : Outcome ε) : empty.combine a = a := by
  refine Outcome.ext (IndexSet.ext fun k => ?_) (List.filter_eq_self.2 fun _ _ => rfl)
  rw [mem_succeeded_combine]
  exact ⟨fun h => h.resolve_left List.not_mem_nil, .inr⟩

/-- In which grouping outcomes are combined makes no difference: of a position that several of them record
as failed, the records of the first one stay. -/
theorem combine_assoc (a b c : Outcome ε) : (a.combine b).combine c = a.combine (b.combine c) := by
  refine Outcome.ext (IndexSet.ext fun k => ?_) ?_
  · rw [mem_succeeded_combine, mem_succeeded_combine, mem_succeeded_combine, mem_succeeded_combine, or_assoc]
  · have hnew : ∀ f : ItemFailure ε, (!(a.combine b).failedIndices.contains f.index) =
        (!a.failedIndices.contains f.index && !b.failedIndices.contains f.index) := by
      intro f
      rw [failedIndices_combine]
      cases ha : a.failedIndices.contains f.index <;> simp_all
    show (a.failures ++ _) ++ c.failures.filter _ = a.failures ++ (b.failures ++ c.failures.filter _).filter _
    rw [List.append_assoc, List.filter_append, List.filter_filter]
    simp only [hnew]

theorem sum_cons (o : Outcome ε) (os : List (Outcome ε)) : sum (o :: os) = o.combine (sum os) := by
  have hfrom : ∀ a : Outcome ε, os.foldl combine a = a.combine (os.foldl combine empty) := by
    induction os with
    | nil => exact fun a => (combine_empty a).symm
    | cons p os ih =>
      intro a
      rw [List.foldl_cons, ih, List.foldl_cons, ih (empty.combine p), empty_combine, combine_assoc]
  unfold sum
  rw [List.foldl_cons, empty_combine]
  exact hfrom o

theorem mem_failedIndices {o : Outcome ε} {f : ItemFailure ε} (h : f ∈ o.failures) :
    f.index ∈ o.failedIndices :=
  List.mem_map_of_mem h

/-- The failures of the first operand stay, and after them those of the second that the first has none of
the same position for. -/
theorem failures_combine (a b : Outcome ε) :
    (a.combine b).failures = a.failures ++ b.failures.filter fun f => f.index ∉ a.failedIndices := by
  show a.failures ++ _ = _
  congr 1
  refine List.filter_congr fun f _ => ?_
  rw [Bool.eq_iff_iff, Bool.not_eq_true', decide_eq_true_iff, ← Bool.not_eq_true, List.contains_iff_mem]

/-- Where no position failed in both, all the failures of the second operand stay. -/
theorem failures_combine_of_disjoint {a b : Outcome ε} (h : ∀ i ∈ a.failedIndices, i ∉ b.failedIndices) :
    (a.combine b).failures = a.failures ++ b.failures := by
  rw [failures_combine, List.filter_eq_self.2]
  intro f hf
  exact decide_eq_true fun ha => h f.index ha (mem_failedIndices hf)

theorem combine_self (a : Outcome ε) : a.combine a = a := by
  refine Outcome.ext (IndexSet.ext fun k => ?_) ?_
  · rw [mem_succeeded_combine, or_self]
  · have hnone : a.failures.filter (fun f => decide (f.index ∉ a.failedIndices)) = [] :=
      List.filter_eq_nil_iff.2 fun f hf => by simp [mem_failedIndices hf]
    rw [failures_combine, hnone, List.append_nil]

theorem succeeded_combine_comm (a b : Outcome ε) :
    (a.combine b).succeeded = (b.combine a).succeeded := by
  refine IndexSet.ext fun k => ?_
  rw [mem_succeeded_combine, mem_succeeded_combine, or_comm]

/-- Where no position failed in both, the order of the operands is the order of the records and no more. -/
theorem combine_perm {a b : Outcome ε} (h : ∀ i ∈ a.failedIndices, i ∉ b.failedIndices) :
    (a.combine b).failures.Perm (b.combine a).failures := by
  rw [failures_combine_of_disjoint h, failures_combine_of_disjoint fun i hb ha => h i ha hb]
  exact List.perm_append_comm

/-! ### Records of a position -/

theorem recordsAt_eq_nil {o : Outcome ε} {i : Int} : o.recordsAt i = [] ↔ i ∉ o.failedIndices := by
  unfold recordsAt failedIndices
  rw [List.filter_eq_nil_iff, List.mem_map]
  constructor
  · rintro h ⟨f, hf, rfl⟩
    exact h f hf (beq_self_eq_true f.index)
  · intro h f hf hi
    exact h ⟨f, hf, eq_of_beq hi⟩

theorem recordsAt_combine (a b : Outcome ε) (i : Int) :
    (a.combine b).recordsAt i = if i ∈ a.failedIndices then a.recordsAt i else b.recordsAt i := by
  -- of the second operand's records either none is left at `i`, or all are
  have hsecond : (b.failures.filter fun f => f.index ∉ a.failedIndices).filter (·.index == i) =
      if i ∈ a.failedIndices then [] else b.recordsAt i := by
    rw [List.filter_filter]
    split
    · next hi =>
      refine List.filter_eq_nil_iff.2 fun f _ hf => ?_
      obtain ⟨hfi, hnew⟩ := Bool.and_eq_true_iff.1 hf
      exact of_decide_eq_true hnew (eq_of_beq hfi ▸ hi)
    · next hi =>
      refine List.filter_congr fun f _ => ?_
      by_cases hfi : f.index = i
      · rw [hfi, decide_eq_true hi, Bool.and_true]
      · rw [beq_false_of_ne hfi, Bool.false_and]
  unfold recordsAt at hsecond ⊢
  rw [failures_combine, List.filter_append, hsecond]
  split
  · exact List.append_nil _
  · next hi => rw [show a.failures.filter _ = [] from recordsAt_eq_nil.2 hi, List.nil_append]

/-- However many outcomes are combined, of each position the records of the first one stay that has any. -/
theorem recordsAt_sum (os : List (Outcome ε)) (i : Int) :
    (sum os).recordsAt i = ((os.find? (i ∈ ·.failedIndices)).getD empty).recordsAt i := by
  induction os with
  | nil => rfl
  | cons o os ih =>
    rw [sum_cons, recordsAt_combine, ih, List.find?_cons]
    split
    · next hi => rw [decide_eq_true hi]; rfl
    · next hi => rw [decide_eq_false hi]

/-! ### Other positions -/

theorem shift_empty (n : Int) : (empty : Outcome ε).shift n = empty := rfl

theorem shift_success (n i : Int) : (success i : Outcome ε).shift n = success (i + n) := rfl

theorem shift_failure (n i : Int) (cause : ε) : (failure i cause).shift n = failure (i + n) cause := rfl

theorem failedIndices_shift (n : Int) (o : Outcome ε) :
    (o.shift n).failedIndices = o.failedIndices.map (· + n) := by
  simp only [failedIndices, shift, List.map_map]
  rfl

/-- Outcomes are moved before or after they are combined. -/
theorem shift_combine (n : Int) (a b : Outcome ε) :
    (a.combine b).shift n = (a.shift n).combine (b.shift n) := by
  refine Outcome.ext (IndexSet.ext fun k => ?_) ?_
  · show k ∈ (a.combine b).succeeded.shift n ↔ _
    rw [IndexSet.mem_shift, mem_succeeded_combine, mem_succeeded_combine]
    show _ ↔ k ∈ a.succeeded.shift n ∨ k ∈ b.succeeded.shift n
    rw [IndexSet.mem_shift, IndexSet.mem_shift]
  · have hseen : ∀ i : Int, (a.failedIndices.map (· + n)).contains (i + n) = a.failedIndices.contains i := by
      intro i
      rw [Bool.eq_iff_iff, List.contains_iff_mem, List.contains_iff_mem, List.mem_map]
      constructor
      · rintro ⟨j, hj, heq⟩
        rwa [← (Int.add_left_inj n).1 heq]
      · exact fun h => ⟨i, h, rfl⟩
    show (a.failures ++ b.failures.filter _).map _ = a.failures.map _ ++ (b.failures.map _).filter _
    rw [List.map_append, List.filter_map, failedIndices_shift]
    congr 2
    exact List.filter_congr fun f _ => congrArg not (hseen f.index).symm

end Outcome

/-! ## Top theorems -/

/-- Outcomes are an idempotent monoid in which first records win, whatever positions are repeated in
them. -/
theorem outcome_laws {ε : Type} (a b c : Outcome ε) :
    (a.combine b).combine c = a.combine (b.combine c) ∧
    Outcome.empty.combine a = a ∧ a.combine .empty = a ∧ a.combine a = a ∧
    (a.combine b).failures = a.failures ++ b.failures.filter (fun f => f.index ∉ a.failedIndices) ∧
    (∀ i, (a.combine b).recordsAt i = if i ∈ a.failedIndices then a.recordsAt i else b.recordsAt i) ∧
    (∀ os i, (Outcome.sum os).recordsAt i =
      ((os.find? (i ∈ ·.failedIndices)).getD (.empty : Outcome ε)).recordsAt i) ∧
    (a.combine b).succeeded = (b.combine a).succeeded ∧
    ((∀ i ∈ a.failedIndices, i ∉ b.failedIndices) →
      (a.combine b).failures.Perm (b.combine a).failures) :=
  ⟨a.combine_assoc b c, a.empty_combine, a.combine_empty, a.combine_self, a.failures_combine b,
    a.recordsAt_combine b, Outcome.recordsAt_sum, a.succeeded_combine_comm b, Outcome.combine_perm⟩

/-- An outcome that records a failure of the position `i` twice, after the one before it succeeded. -/
def failedTwice (i : Int) : Outcome String := ⟨.ofList [i - 1], [⟨i, "first"⟩, ⟨i, "second"⟩]⟩

/-- No position failed in both outcomes, and the records are the same ones in another order. -/
theorem failedTwice_perm :
    (∀ i ∈ (failedTwice 1).failedIndices, i ∉ (failedTwice 3).failedIndices) ∧
    ((failedTwice 1).combine (failedTwice 3)).failures.Perm
      ((failedTwice 3).combine (failedTwice 1)).failures ∧
    ((failedTwice 1).combine (failedTwice 3)).failures ≠
      ((failedTwice 3).combine (failedTwice 1)).failures := by
  have hdisjoint : ∀ i ∈ (failedTwice 1).failedIndices, i ∉ (failedTwice 3).failedIndices := by decide
  obtain ⟨-, -, -, -, -, -, -, -, hperm⟩ := outcome_laws (failedTwice 1) (failedTwice 3) .empty
  exact ⟨hdisjoint, hperm hdisjoint, by decide⟩

end CasStore
