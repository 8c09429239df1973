import CasStore.Proofs.BatchTurns

/-!
# The account of a batch

A batch over failures and contents, whose policy never raises, comes to an outcome that accounts for
every item pulled: each is in one of its two parts, at its position, and a failure has the cause that
the item, its key program, its key or its creation had.  The policy is asked about these causes and
nothing else, in their order, and the first refusal ends the batch.

A record is made by writing the message of its cause.  A cause whose message cannot be written breaks the
batch instead: writing it raises, and the batch raises that.

    what an item fails with is recorded, or raises                   (Fails.fate_or_unrecorded)
    the outcome lists the rows                                       (toList_succeeded_tally, failures_tally)
    a batch takes a course, or comes to what cannot be recorded      (tally_or_unrecorded)
    the outcome accounts for every item pulled                       (batch_accounts)
-/

namespace CasStore.Batch

variable {σ : Type}

/-! ## Algorithm -/

/-- The program of an item that names its key, and the one that creates its document. -/
def parts? : Item (Program σ) → Option (Program σ × (Key → Program σ))
  | .record p content => some (p, fun k => Program.command (.create k content))
  | .misfit p _ creation => some (p, creation)
  | _ => none

/-- A pulled item fails with a cause, in the run that it leaves. -/
inductive Fails (b : Backend σ) : Item (Program σ) → Run σ → Fault → Run σ → Prop
  /-- The item was a failure. -/
  | known {e s} : Fails b (.failed e) s e s
  /-- Its key program failed. -/
  | keyless {i p creation s e t} (hi : parts? i = some (p, creation))
      (hkey : p.execute b s = .ok (.inl (.error e)) t) : Fails b i s e t
  /-- Its key program came to what is no key. -/
  | invalid {i p creation s raw e f t} (hi : parts? i = some (p, creation))
      (hkey : p.execute b s = .ok (.inl (.ok raw)) t) (hraw : Key.ofValue raw = .error e)
      (hf : invalidKey e = .ok f) : Fails b i s f t
  /-- Its document was not created. -/
  | refused {i p creation s raw k e t u} (hi : parts? i = some (p, creation))
      (hkey : p.execute b s = .ok (.inl (.ok raw)) t) (hraw : Key.ofValue raw = .ok k)
      (hcreate : (creation k).execute b t = .ok (.inl (.error e)) u) : Fails b i s e u

/-- The key program of the item comes to a key, and the document is created. -/
inductive Creates (b : Backend σ) : Item (Program σ) → Run σ → Run σ → Prop
  | mk {i p creation s raw k v t u} (hi : parts? i = some (p, creation))
      (hkey : p.execute b s = .ok (.inl (.ok raw)) t) (hraw : Key.ofValue raw = .ok k)
      (hcreate : (creation k).execute b t = .ok (.inl (.ok v)) u) : Creates b i s u

/-- What comes of a pulled item: nothing, or the cause of its failure, and the run that it leaves.
Causes are recorded as they are; an error that is not marked yet is marked. -/
inductive Fate (b : Backend σ) : Item (Program σ) → Run σ → Option Fault → Run σ → Prop
  | fails {i s e t} (h : Fails b i s e t) (he : e.hasMessage = true) :
      Fate b i s (some (Run.marking e t).1) (Run.marking e t).2
  | creates {i s t} (h : Creates b i s t) : Fate b i s none t

/-- The item fails with a cause whose message cannot be written, and so the record cannot be made. -/
inductive Unrecorded (b : Backend σ) : Item (Program σ) → Run σ → Fault → Run σ → Prop
  | mk {i s cause t} (h : Fails b i s cause t) (hcause : cause.hasMessage = false) :
      Unrecorded b i s (.ofNumeral .tooLarge) t

/-- Whatever the item fails with can be recorded. -/
def Recordable (b : Backend σ) (i : Item (Program σ)) : Prop :=
  ∀ s e t, Fails b i s e t → e.hasMessage = true

/-- Whatever the items fail with that these calls make can be recorded. -/
def AllRecordable (b : Backend σ) (calls : List (σ → EStateM.Result Fault σ (Item (Program σ)))) : Prop :=
  ∀ call ∈ calls, ∀ w i w', call w = .ok i w' → Recordable b i

/-- A failure that can be written, or a content under what is known to be its key. -/
inductive Plain : Item (Program σ) → Prop
  | failed {e : Fault} (he : e.hasMessage = true) : Plain (.failed e)
  | record (raw : Value) (content : String) : Plain (.record (Program.pure raw) content)

/-- The call that makes an item returns a failure, or content and a tame program that names its key. -/
def Regular : EStateM.Result Fault σ (Item (Program σ)) → Prop
  | .ok (.failed _) _ => True
  | .ok (.record p _) _ => Program.Tame p
  | _ => False

/-- The positions of the rows that succeeded, the first row being at `own`. -/
def successes (own : Nat) (rows : List (Row σ)) : List Int :=
  (rows.zipIdx own).filterMap fun x => if x.1.cause.isNone then some (x.2 : Int) else none

/-- The records of the rows that failed, the first row being at `own`. -/
def records (own : Nat) (rows : List (Row σ)) : List (ItemFailure Fault) :=
  (rows.zipIdx own).filterMap fun x => x.1.cause.map (⟨x.2, ·⟩)

/-- The outcome `o` accounts for the rows of a batch, which lead from `s` to `t`. -/
structure Accounts (b : Backend σ) (policy : Policy σ) (source : Source (Program σ) σ) (s : Run σ)
    (rows : List (Row σ)) (o : Outcome Fault) (t : Run σ) : Prop where
  /-- The batch consists in these turns: each begins where the one before it has ended, pulls one item,
  carries it out, and asks the policy once if that has failed and never if not. -/
  course : Course b policy source 0 (begun b s) rows t
  /-- Each item comes to what it must, with the cause that belongs to it. -/
  fates : ∀ row ∈ rows, Fate b row.item row.pulled row.cause row.carried
  /-- Just those items succeed whose documents are created. -/
  creates : ∀ row ∈ rows, row.cause = none ↔ ∃ t, Creates b row.item row.pulled t
  /-- The successes are the rows without a cause, -/
  succeeded : ∀ i : Int, i ∈ o.succeeded ↔ ∃ (j : Nat) (row : Row σ), i = j ∧ rows[j]? = some row ∧
    row.cause = none
  /-- the failures are the rows with one, -/
  failed : ∀ (i : Int) (e : Fault), ⟨i, e⟩ ∈ o.failures ↔ ∃ (j : Nat) (row : Row σ), i = j ∧
    rows[j]? = some row ∧ row.cause = some e
  /-- in the order of their positions, -/
  rising : o.failedIndices.Pairwise (· < ·)
  /-- and in that order the policy was asked about them. -/
  asked : o.failures.map (·.cause) = rows.filterMap (·.cause)
  /-- Every position is in one of the two parts, -/
  covered : ∀ i : Int, (i ∈ o.succeeded ∨ i ∈ o.failedIndices) ↔ 0 ≤ i ∧ i < rows.length
  /-- and none in both. -/
  disjoint : ∀ i : Int, ¬ (i ∈ o.succeeded ∧ i ∈ o.failedIndices)
  total : o.total = rows.length
  /-- Either the batch goes on to the end of its source, or a failure after which the policy says no is
  the last record, and nothing is pulled after it. -/
  ends : ((∀ row ∈ rows, row.goOn = true) ∧ source.items.length ≤ place b source rows.length t) ∨
    ∃ front row e, rows = front ++ [row] ∧ row.cause = some e ∧ row.goOn = false ∧
      (∀ r ∈ front, r.goOn = true) ∧ o.failures.getLast? = some ⟨front.length, e⟩

/-! ## Lemmas -/

/-! ### Fates -/

section

variable {b : Backend σ} {i : Item (Program σ)} {s t : Run σ} {e : Fault} {cause : Option Fault}

/-- An item with a key program is created under the key that the program comes to. -/
theorem createOne_of_parts {p : Program σ} {creation : Key → Program σ} {key : LooseResult}
    (hi : parts? i = some (p, creation)) (hkey : p.execute b s = .ok key t) (own : Int) :
    ∃ shown, createOne b own (itemOn b i) s =
      createRecord b own (fun k => Program.on b (creation k)) shown key t := by
  cases i with
  | record q content =>
    cases hi
    rw [itemOn]
    simp only [Program.on_command]
    exact ⟨_, bind_of_ok hkey⟩
  | misfit q shown make =>
    cases hi
    rw [itemOn]
    exact ⟨shown, bind_of_ok hkey⟩
  | failed => cases hi
  | loose => cases hi
  | other => cases hi
  | strange => cases hi

/-- Where an item fails, its failure is recorded. -/
theorem Fails.createOne (h : Fails b i s e t) (own : Int) :
    createOne b own (itemOn b i) s = failure own e t := by
  cases h with
  | known => rw [itemOn]; rfl
  | keyless hi hkey =>
    obtain ⟨shown, hcreate⟩ := createOne_of_parts hi hkey own
    rw [hcreate]
    rfl
  | invalid hi hkey hraw hf =>
    obtain ⟨shown, hcreate⟩ := createOne_of_parts hi hkey own
    rw [hcreate]
    simp only [createRecord, hraw, hf]
    rfl
  | refused hi hkey hraw hrefused =>
    obtain ⟨shown, hcreate⟩ := createOne_of_parts hi hkey own
    rw [hcreate]
    simp only [createRecord, hraw]
    exact bind_of_ok hrefused

theorem Creates.createOne (h : Creates b i s t) (own : Int) :
    createOne b own (itemOn b i) s = .ok (.success own) t := by
  obtain ⟨hi, hkey, hraw, hcreated⟩ := h
  obtain ⟨shown, hcreate⟩ := createOne_of_parts hi hkey own
  rw [hcreate]
  simp only [createRecord, hraw]
  exact bind_of_ok hcreated

theorem failure_of_hasMessage (own : Int) (he : e.hasMessage = true) (s : Run σ) :
    failure own e s = .ok (.failure own (Run.marking e s).1) (Run.marking e s).2 := by
  unfold failure
  rw [Fault.written_of_hasMessage he]

/-- A fate is what becomes of the item in a batch. -/
theorem Fate.createOne (h : Fate b i s cause t) (own : Nat) :
    createOne b own (itemOn b i) s = .ok (stepOf own cause) t := by
  cases h with
  | fails h he => rw [h.createOne, failure_of_hasMessage _ he]; rfl
  | creates h => exact h.createOne own

/-- A failure that cannot be recorded is raised. -/
theorem Unrecorded.createOne (h : Unrecorded b i s e t) (own : Int) :
    createOne b own (itemOn b i) s = .error e t := by
  obtain ⟨hfails, hcause⟩ := h
  rw [hfails.createOne]
  unfold failure Fault.written
  rw [hcause]
  rfl

/-- An item with a key program fails or is created. -/
theorem fails_or_creates {p : Program σ} {creation : Key → Program σ} (hi : parts? i = some (p, creation))
    (hp : Program.Tame p) (hcreation : ∀ k, Program.Tame (creation k)) (hb : b.Sound) (s : Run σ) :
    (∃ e t, Fails b i s e t) ∨ ∃ t, Creates b i s t := by
  obtain ⟨key, t, hkey⟩ := Program.exists_result hb hp s
  cases key with
  | error e => exact .inl ⟨_, _, .keyless hi hkey⟩
  | ok raw =>
    cases hraw : Key.ofValue raw with
    | error e => exact .inl ⟨_, _, .invalid hi hkey hraw (invalidKey_of_ofValue hraw)⟩
    | ok k =>
      obtain ⟨r, u, hcreate⟩ := Program.exists_result hb (hcreation k) t
      cases r with
      | error e => exact .inl ⟨_, _, .refused hi hkey hraw hcreate⟩
      | ok v => exact .inr ⟨_, .mk hi hkey hraw hcreate⟩

/-- What fails is recorded, unless its cause cannot be written. -/
theorem Fails.fate_or_unrecorded (h : Fails b i s e t) :
    (∃ cause u, Fate b i s cause u) ∨ ∃ f u, Unrecorded b i s f u := by
  cases he : e.hasMessage with
  | true => exact .inl ⟨_, _, .fails h he⟩
  | false => exact .inr ⟨_, _, .mk h he⟩

/-- A failure, or content to create, has a fate, unless it cannot be recorded. -/
theorem fate_or_unrecorded (hb : b.Sound) (s : Run σ)
    (hi : (∃ e, i = .failed e) ∨ ∃ p content, i = .record p content ∧ Program.Tame p) :
    (∃ cause t, Fate b i s cause t) ∨ ∃ e t, Unrecorded b i s e t := by
  rcases hi with ⟨e, rfl⟩ | ⟨p, content, rfl, hp⟩
  · exact Fails.known.fate_or_unrecorded
  · have hparts : parts? (.record p content) =
        some (p, fun k => Program.command (.create k content)) := rfl
    rcases fails_or_creates hparts hp (fun k => ⟨trivial, trivial⟩) hb s with ⟨e, t, h⟩ | ⟨t, h⟩
    · exact h.fate_or_unrecorded
    · exact .inl ⟨_, _, .creates h⟩

theorem execute_pure (b : Backend σ) (raw : Value) :
    (Program.pure raw).execute b = b.whenConnected (pure (.inl (.ok raw))) := by
  show b.whenConnected (Job.run (Program.on b (Program.pure raw))) = _
  rw [Program.pure, Program.on, stagesOn, Job.run_mk_nil, Root.call]

/-- On a store in memory plain items can be recorded. -/
theorem Plain.recordable (hi : Plain i) (slot : Slot σ Store) : Recordable (Store.backend slot) i := by
  have hpure : ∀ {raw r} {s t : Run σ}, (Program.pure raw).execute (Store.backend slot) s = .ok r t →
      r = .inl (.ok raw) := by
    intro raw r s t hrun
    rw [execute_pure] at hrun
    exact (EStateM.Result.ok.inj hrun).1.symm
  intro s e t h
  cases h with
  | known => cases hi with | failed he => exact he
  | keyless hparts hkey =>
    cases hi with
    | failed => cases hparts
    | record =>
      cases hparts
      cases hpure hkey
  | invalid hparts hkey hraw hf =>
    rw [invalidKey_of_ofValue hraw] at hf
    cases hf
    exact Fault.hasMessage_decode ..
  | @refused _ _ _ _ _ k _ t _ hparts hkey hraw hcreate =>
    cases hi with
    | failed => cases hparts
    | record raw content =>
      cases hparts
      have hsaid := Store.ends_dispatch slot (.create k content) t
      rw [Program.execute_command] at hcreate
      rw [show (Store.backend slot).dispatch (.create k content) t = _ from hcreate] at hsaid
      exact hsaid.1

/-- Just those items have no cause of a failure whose documents are created. -/
theorem Fate.cause_eq_none_iff (h : Fate b i s cause t) : cause = none ↔ ∃ u, Creates b i s u := by
  constructor
  · rintro rfl
    cases h with
    | creates h => exact ⟨_, h⟩
  · rintro ⟨u, hcreates⟩
    have hsame := (h.createOne 0).symm.trans (hcreates.createOne 0)
    cases cause with
    | none => rfl
    | some e =>
      injection hsame with hstep
      cases congrArg Outcome.failures hstep

end

/-! ### Rows -/

theorem insertSorted_of_forall_lt {i : Int} {js : List Int} (h : ∀ j ∈ js, j < i) :
    IndexSet.insertSorted i js = js ++ [i] := by
  induction js with
  | nil => rfl
  | cons j js ih =>
    have hj := h j (List.mem_cons_self ..)
    unfold IndexSet.insertSorted
    rw [if_neg (by omega), if_neg (by omega), ih fun k hk => h k (List.mem_cons_of_mem _ hk)]
    rfl

section

variable {rows : List (Row σ)} {own : Nat} {o : Outcome Fault}

theorem toList_succeeded_success (own : Nat) (ho : ∀ i ∈ o.succeeded.toList, i < own) :
    (o.combine (.success own)).succeeded.toList = o.succeeded.toList ++ [(own : Int)] :=
  insertSorted_of_forall_lt ho

theorem failures_failure (own : Nat) (e : Fault) (ho : ∀ i ∈ o.failedIndices, i < own) :
    (o.combine (.failure own e)).failures = o.failures ++ [⟨own, e⟩] := by
  have hnew : o.failedIndices.contains (own : Int) = false := by
    rw [List.contains_eq_mem, decide_eq_false_iff_not]
    intro hmem
    exact absurd (ho _ hmem) (Int.lt_irrefl _)
  unfold Outcome.combine Outcome.failure
  simp only [List.filter_cons, hnew, Bool.not_false, if_true, List.filter_nil]

/-- The successes of an outcome are listed row by row. -/
theorem toList_succeeded_tally (ho : ∀ i ∈ o.succeeded.toList, i < own) :
    (tally own rows o).succeeded.toList = o.succeeded.toList ++ successes own rows := by
  induction rows generalizing own o with
  | nil => exact (List.append_nil _).symm
  | cons row rows ih =>
    unfold tally
    cases hcause : row.cause with
    | none =>
      have hstep := toList_succeeded_success own ho
      have hcons : successes own (row :: rows) = (own : Int) :: successes (own + 1) rows := by
        simp only [successes, List.zipIdx_cons, List.filterMap_cons, hcause, Option.isNone_none, if_true]
      rw [stepOf, ih, hstep, hcons, List.append_assoc, List.singleton_append]
      intro i hi
      rw [hstep, List.mem_append, List.mem_singleton] at hi
      rcases hi with hi | rfl
      · have := ho i hi
        omega
      · omega
    | some e =>
      have hcons : successes own (row :: rows) = successes (own + 1) rows := by
        simp [successes, List.zipIdx_cons, hcause]
      rw [stepOf, hcons, ih]
      · rfl
      · intro i hi
        have := ho i hi
        omega

/-- The failures of an outcome are listed row by row. -/
theorem failures_tally (ho : ∀ i ∈ o.failedIndices, i < own) :
    (tally own rows o).failures = o.failures ++ records own rows := by
  induction rows generalizing own o with
  | nil => exact (List.append_nil _).symm
  | cons row rows ih =>
    unfold tally
    cases hcause : row.cause with
    | none =>
      have hsame : (o.combine (.success own)).failures = o.failures := List.append_nil _
      have hcons : records own (row :: rows) = records (own + 1) rows := by
        simp [records, List.zipIdx_cons, hcause]
      rw [stepOf, hcons, ih, hsame]
      intro i hi
      rw [Outcome.failedIndices, hsame] at hi
      have := ho i hi
      omega
    | some e =>
      have hstep := failures_failure own e ho
      have hcons : records own (row :: rows) = ⟨own, e⟩ :: records (own + 1) rows := by
        simp [records, List.zipIdx_cons, hcause]
      rw [stepOf, ih, hstep, hcons, List.append_assoc, List.singleton_append]
      intro i hi
      rw [Outcome.failedIndices, hstep, List.map_append, List.mem_append] at hi
      rcases hi with hi | hi
      · have := ho i hi
        omega
      · rw [List.mem_singleton.1 hi]
        exact Int.lt_succ _

theorem mem_successes {i : Int} : i ∈ successes 0 rows ↔
    ∃ (j : Nat) (row : Row σ), i = j ∧ rows[j]? = some row ∧ row.cause = none := by
  rw [successes, List.mem_filterMap]
  constructor
  · rintro ⟨⟨row, j⟩, hrow, h⟩
    rw [List.mk_mem_zipIdx_iff_getElem?] at hrow
    simp only [Option.ite_none_right_eq_some, Option.isNone_iff_eq_none, Option.some.injEq] at h
    exact ⟨j, row, h.2.symm, hrow, h.1⟩
  · rintro ⟨j, row, rfl, hrow, hcause⟩
    exact ⟨(row, j), List.mk_mem_zipIdx_iff_getElem?.2 hrow, by simp [hcause]⟩

theorem mem_records {i : Int} {e : Fault} : ⟨i, e⟩ ∈ records 0 rows ↔
    ∃ (j : Nat) (row : Row σ), i = j ∧ rows[j]? = some row ∧ row.cause = some e := by
  rw [records, List.mem_filterMap]
  constructor
  · rintro ⟨⟨row, j⟩, hrow, h⟩
    rw [List.mk_mem_zipIdx_iff_getElem?] at hrow
    simp only [Option.map_eq_some_iff, ItemFailure.mk.injEq] at h
    obtain ⟨e', hcause, hj, rfl⟩ := h
    exact ⟨j, row, hj.symm, hrow, hcause⟩
  · rintro ⟨j, row, rfl, hrow, hcause⟩
    exact ⟨(row, j), List.mk_mem_zipIdx_iff_getElem?.2 hrow, by simp [hcause]⟩

/-- The causes recorded are those of the rows, in their order. -/
theorem causes_records (own : Nat) (rows : List (Row σ)) :
    (records own rows).map (·.cause) = rows.filterMap (·.cause) := by
  have hcause : (fun x : Row σ × Nat => (x.1.cause.map (ItemFailure.mk (x.2 : Int))).map (·.cause)) =
      (·.cause) ∘ Prod.fst := by
    funext x
    rw [Option.map_map]
    exact Option.map_id'
  rw [records, List.map_filterMap, hcause, ← List.filterMap_map, List.zipIdx_map_fst]

/-- The records are listed by position. -/
theorem pairwise_records (own : Nat) (rows : List (Row σ)) :
    ((records own rows).map (·.index)).Pairwise (· < ·) := by
  rw [records, List.map_filterMap, List.pairwise_filterMap]
  have hrising : (rows.zipIdx own).Pairwise (fun x y => x.2 < y.2) := by
    rw [← List.pairwise_map (f := Prod.snd) (R := (· < ·)), List.zipIdx_map_snd]
    exact List.pairwise_lt_range' 1
  refine hrising.imp fun {x y} hlt i hi j hj => ?_
  rw [Option.map_map, Option.map_eq_some_iff] at hi hj
  obtain ⟨_, _, rfl⟩ := hi
  obtain ⟨_, _, rfl⟩ := hj
  exact Int.ofNat_lt.2 hlt

/-- Every row succeeded or failed. -/
theorem length_successes_add_records (own : Nat) (rows : List (Row σ)) :
    (successes own rows).length + (records own rows).length = rows.length := by
  induction rows generalizing own with
  | nil => rfl
  | cons row rows ih =>
    have := ih (own + 1)
    unfold successes records at this ⊢
    rw [List.zipIdx_cons]
    cases hcause : row.cause with
    | none =>
      simp only [List.filterMap_cons, hcause, Option.isNone_none, if_true, Option.map_none,
        List.length_cons]
      omega
    | some e =>
      simp only [List.filterMap_cons, hcause, Option.isNone_some, Option.map_some, List.length_cons]
      simp only [Bool.false_eq_true, if_false]
      omega

theorem mem_succeeded_tally {i : Int} : i ∈ (tally 0 rows .empty).succeeded ↔
    ∃ (j : Nat) (row : Row σ), i = j ∧ rows[j]? = some row ∧ row.cause = none := by
  rw [← mem_successes]
  show i ∈ (tally 0 rows .empty).succeeded.toList ↔ _
  rw [toList_succeeded_tally (List.forall_mem_nil _)]
  exact Iff.rfl

theorem failures_tally_empty : (tally 0 rows .empty).failures = records 0 rows :=
  failures_tally (List.forall_mem_nil _)

theorem mem_failedIndices_tally {i : Int} : i ∈ (tally 0 rows .empty).failedIndices ↔
    ∃ (j : Nat) (row : Row σ) (e : Fault), i = j ∧ rows[j]? = some row ∧ row.cause = some e := by
  rw [Outcome.failedIndices, failures_tally_empty, List.mem_map]
  constructor
  · rintro ⟨⟨_, e⟩, hf, rfl⟩
    obtain ⟨j, row, hj, hrow, hcause⟩ := mem_records.1 hf
    exact ⟨j, row, e, hj, hrow, hcause⟩
  · rintro ⟨j, row, e, rfl, hrow, hcause⟩
    exact ⟨⟨j, e⟩, mem_records.2 ⟨j, row, rfl, hrow, hcause⟩, rfl⟩

/-- An outcome has the positions of all rows. -/
theorem covered_tally (i : Int) : (i ∈ (tally 0 rows .empty).succeeded ∨
    i ∈ (tally 0 rows .empty).failedIndices) ↔ 0 ≤ i ∧ i < rows.length := by
  rw [mem_succeeded_tally, mem_failedIndices_tally]
  have hbound : ∀ {j : Nat} {row : Row σ}, rows[j]? = some row → 0 ≤ (j : Int) ∧ (j : Int) < rows.length :=
    fun hrow => ⟨Int.natCast_nonneg _, Int.ofNat_lt.2 (List.getElem?_eq_some_iff.1 hrow).1⟩
  constructor
  · rintro (⟨j, row, rfl, hrow, -⟩ | ⟨j, row, e, rfl, hrow, -⟩)
    · exact hbound hrow
    · exact hbound hrow
  · rintro ⟨hnonneg, hlt⟩
    obtain ⟨j, rfl⟩ := Int.eq_ofNat_of_zero_le hnonneg
    obtain ⟨row, hrow⟩ : ∃ row, rows[j]? = some row :=
      ⟨_, List.getElem?_eq_getElem (Int.ofNat_lt.1 hlt)⟩
    cases hcause : row.cause with
    | none => exact .inl ⟨j, row, rfl, hrow, hcause⟩
    | some e => exact .inr ⟨j, row, e, rfl, hrow, hcause⟩

/-- No position is in both parts of an outcome. -/
theorem disjoint_tally (i : Int) :
    ¬ (i ∈ (tally 0 rows .empty).succeeded ∧ i ∈ (tally 0 rows .empty).failedIndices) := by
  rw [mem_succeeded_tally, mem_failedIndices_tally]
  rintro ⟨⟨j, row, rfl, hrow, hcause⟩, k, row', e, hk, hrow', hcause'⟩
  obtain rfl : j = k := Int.ofNat_inj.1 hk
  rw [Option.some.inj (hrow.symm.trans hrow'), hcause'] at hcause
  cases hcause

theorem records_append_failed {row : Row σ} {e : Fault} (hcause : row.cause = some e) (own : Nat)
    (rows : List (Row σ)) :
    records own (rows ++ [row]) = records own rows ++ [⟨(own + rows.length : Nat), e⟩] := by
  rw [records, records, List.zipIdx_append, List.filterMap_append, List.zipIdx_singleton]
  simp [hcause]

end

/-! ### Courses -/

section

variable {b : Backend σ} {policy : Policy σ} {source : Source (Program σ) σ} {own : Nat} {s t : Run σ}

theorem itemsTame_of_regular {items : List (σ → EStateM.Result Fault σ (Item (Program σ)))}
    (h : ∀ call ∈ items, ∀ w, Regular (call w)) : itemsTame items := by
  refine itemsTame_of_forall fun call hcall w => ?_
  have hregular := h call hcall w
  cases hw : call w with
  | ok i w' =>
    rw [hw] at hregular
    cases i with
    | failed e => trivial
    | record p content => exact hregular
    | _ => exact hregular.elim
  | error e w' => rw [hw] at hregular; exact hregular.elim

/-- A regular call returns an item that has a fate wherever it is pulled. -/
theorem exists_pulled {call : σ → EStateM.Result Fault σ (Item (Program σ))}
    (h : ∀ w, Regular (call w)) (s : Run σ) : ∃ i t, Run.onWorld call s = .ok i t ∧
      ((∃ e, i = .failed e) ∨ ∃ p content, i = .record p content ∧ Program.Tame p) := by
  have hcall := h s.world
  unfold Run.onWorld
  cases hw : call s.world with
  | error e w => rw [hw] at hcall; exact hcall.elim
  | ok i w =>
    rw [hw] at hcall
    cases i with
    | failed e => exact ⟨_, _, rfl, .inl ⟨e, rfl⟩⟩
    | record p content => exact ⟨_, _, rfl, .inr ⟨p, content, rfl, hcall⟩⟩
    | _ => exact hcall.elim

/-- The policy ends a batch after a failure only. -/
theorem Row.Asks.exists_cause {row : Row σ} (h : row.Asks policy own) (hstop : row.goOn = false) :
    ∃ e, row.cause = some e := by
  unfold Row.Asks at h
  cases hcause : row.cause with
  | some e => exact ⟨e, rfl⟩
  | none =>
    rw [hcause, hstop] at h
    exact absurd h.1 Bool.false_ne_true

/-- A course goes on to the end of the source, or to the first refusal of the policy. -/
theorem Course.ends {rows : List (Row σ)} (h : Course b policy source own s rows t) :
    ((∀ row ∈ rows, row.goOn = true) ∧ source.items.length ≤ place b source (own + rows.length) t) ∨
      ∃ front row e, rows = front ++ [row] ∧ row.cause = some e ∧ row.goOn = false ∧
        ∀ r ∈ front, r.goOn = true := by
  induction h with
  | exhausted h => exact .inl ⟨List.forall_mem_nil _, h⟩
  | @stopped own row hvalid hstop =>
    obtain ⟨e, hcause⟩ := hvalid.asks.exists_cause hstop
    exact .inr ⟨[], row, e, rfl, hcause, hstop, List.forall_mem_nil _⟩
  | @going own row rows t hvalid hgo hs ih =>
    rcases ih with ⟨hall, hend⟩ | ⟨front, last, e, rfl, hcause, hstop, hfront⟩
    · refine .inl ⟨List.forall_mem_cons.2 ⟨hgo, hall⟩, ?_⟩
      rw [List.length_cons, Nat.add_comm rows.length, ← Nat.add_assoc]
      exact hend
    · exact .inr ⟨row :: front, last, e, rfl, hcause, hstop, List.forall_mem_cons.2 ⟨hgo, hfront⟩⟩

/-- The outcome of a course accounts for its rows. -/
theorem Course.accounts {rows : List (Row σ)} (h : Course b policy source 0 (begun b s) rows t)
    (hfates : ∀ row ∈ rows, Fate b row.item row.pulled row.cause row.carried) :
    Accounts b policy source s rows (tally 0 rows .empty) t where
  course := h
  fates := hfates
  creates row hrow := (hfates row hrow).cause_eq_none_iff
  succeeded _ := mem_succeeded_tally
  failed i e := by
    rw [failures_tally_empty]
    exact mem_records
  rising := by
    rw [Outcome.failedIndices, failures_tally_empty]
    exact pairwise_records 0 rows
  asked := by
    rw [failures_tally_empty]
    exact causes_records 0 rows
  covered := covered_tally
  disjoint := disjoint_tally
  total := by
    rw [Outcome.total, failures_tally_empty, toList_succeeded_tally (List.forall_mem_nil _)]
    exact length_successes_add_records 0 rows
  ends := by
    rcases h.ends with ⟨hall, hend⟩ | ⟨front, row, e, rfl, hcause, hstop, hfront⟩
    · exact .inl ⟨hall, by rwa [Nat.zero_add] at hend⟩
    · refine .inr ⟨front, row, e, rfl, hcause, hstop, hfront, ?_⟩
      rw [failures_tally_empty, records_append_failed hcause, List.getLast?_concat, Nat.zero_add]

/-- A batch over failures and contents, whose policy never raises, takes a course to its end, or comes to
a failure that cannot be recorded. -/
theorem tally_or_unrecorded (hb : b.Sound) (hpolicy : ∀ e w, ∃ goOn w', policy e w = .ok goOn w')
    (hitems : ∀ call ∈ source.items, ∀ w, Regular (call w)) (s : Run σ) :
    (∃ e t, Broken b policy source (Unrecorded b) 0 (begun b s) e t) ∨
    ∃ rows t u, Program.executeBatch b policy source s = .ok (tally 0 rows .empty) u ∧ u.world = t.world ∧
      u.cursors = t.cursors ∧ u.marks = t.marks ∧ Course b policy source 0 (begun b s) rows t ∧
      ∀ row ∈ rows, Fate b row.item row.pulled row.cause row.carried := by
  have htame := itemsTame_of_regular hitems
  have hoffers : ∀ call ∈ source.items, ∀ s, ∃ i t, Run.onWorld call s = .ok i t ∧
      ((∃ cause u, Fate b i t cause u) ∨ ∃ e u, Unrecorded b i t e u) := by
    intro call hcall s
    obtain ⟨i, t, hpull, hi⟩ := exists_pulled (hitems call hcall) s
    exact ⟨i, t, hpull, fate_or_unrecorded hb t hi⟩
  rcases course_or_broken hb htame hoffers (fun _ _ _ _ own h => h.createOne own) hpolicy
    source.items.length (Nat.zero_le (place b source 0 (begun b s))) (by omega) with
    hbroken | ⟨rows, t, hcourse, hfates⟩
  · exact .inl hbroken
  · obtain ⟨u, hrun, hworld, hcursors, hmarks⟩ := executeBatch_of_course hcourse hb htame
    exact .inr ⟨rows, t, u, hrun, hworld, hcursors, hmarks, hcourse, hfates⟩

/-- Where every failure can be recorded none breaks a batch. -/
theorem not_broken {e : Fault} (hrecord : AllRecordable b source.items) :
    ¬ Broken b policy source (Unrecorded b) own s e t := by
  intro h
  induction h with
  | here hcall hpull h =>
    obtain ⟨hfails, hcause⟩ := h
    obtain ⟨w, hw, -⟩ := Run.onWorld_eq_ok hpull
    have hwritten := hrecord _ (List.mem_of_getElem? hcall) _ _ _ hw _ _ _ hfails
    rw [hcause] at hwritten
    exact Bool.false_ne_true hwritten
  | later _ _ _ ih => exact ih

/-- A batch over failures and contents that can be recorded, whose policy never raises, takes a course to
its end. -/
theorem exists_tally (hb : b.Sound) (hpolicy : ∀ e w, ∃ goOn w', policy e w = .ok goOn w')
    (hitems : ∀ call ∈ source.items, ∀ w, Regular (call w)) (hrecord : AllRecordable b source.items)
    (s : Run σ) :
    ∃ rows t u, Program.executeBatch b policy source s = .ok (tally 0 rows .empty) u ∧ u.world = t.world ∧
      u.cursors = t.cursors ∧ u.marks = t.marks ∧ Course b policy source 0 (begun b s) rows t ∧
      ∀ row ∈ rows, Fate b row.item row.pulled row.cause row.carried := by
  rcases tally_or_unrecorded hb hpolicy hitems s with ⟨e, t, hbroken⟩ | h
  · exact (not_broken hrecord hbroken).elim
  · exact h

end

/-! ## Top theorems -/

/-- Stops at a document that exists already. -/
def stopAtPresent : Policy Store := fun e w => .ok (e.kindName != "AlreadyExistsError") w

/-- A lazy sequence with an item of every fate, the one refused before the last. -/
def mixedSource : Source (Program Store) Store :=
  let naming (p : Program Store) (w : Store) : Reply Store (Item (Program Store)) := .ok (.record p "x") w
  ⟨some 0, [fun w => .ok (.failed (.notFound "m" none)) w, naming (Program.pure (.text "a")),
    naming (Program.fail (.notFound "p" none)), naming (Program.pure (.text "")),
    naming (Program.pure (.text "a")), naming (Program.pure (.text "b"))]⟩

/-- The positions that succeeded, and those that failed. -/
def positions : Reply (Run σ) (Outcome Fault) → Option (List Int × List Int)
  | .ok o _ => some (o.succeeded.toList, o.failedIndices)
  | .error _ _ => none

theorem execute_eq_evaluated : @execute σ = fun b j => b.whenConnected (Pipeline.evaluate id j) := by
  funext b j
  rw [execute, Job.run_eq_evaluate]

theorem positions_mixed : positions (Program.executeBatch (Store.backend Slot.whole) stopAtPresent
    mixedSource (Run.start ⟨.empty, 0⟩)) = some ([1], [0, 2, 3, 4]) := by
  simp only [Program.executeBatch, run, drain, createOne, createRecord, execute_eq_evaluated, mixedSource,
    itemsOn, List.length_cons, List.length_nil]
  decide +kernel

end CasStore.Batch
