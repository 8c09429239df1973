import CasStore.Proofs.Blindness
import CasStore.Proofs.Outcomes

/-!
# Batches that are resumed

A policy may stop a batch over a lazy sequence, and then the batch may be run once more over what is left.
Rounds like that go on until one of them pulls nothing.  All together they do what one batch does that is
never stopped: no item is lost, and none is carried out twice.  The policy may do what it likes with its own
part of the world; backend and items are blind for that.

    a turn of one run is a turn of the other                         (Row.Valid.transport)
    a round is a part of the batch that is never stopped             (Course.transport)
    rounds together are that batch                                   (Rounds.together)
    every round but the last leaves fewer items                      (exists_rounds)
    nothing is lost, and nothing is done twice                       (stopped_batch_resumes)
-/

namespace CasStore.Batch

variable {σ τ : Type}

/-! ## Algorithm -/

/-- A run of the batch over what is left of its source, which pulls `n` items. -/
structure Round (b : Backend σ) (policy : Policy σ) (source : Source (Program σ) σ) (s : Run σ) (n : Nat)
    (o : Outcome Fault) (t : Run σ) : Prop where
  run : Program.executeBatch b policy source s = .ok o t
  pulls : ∃ rows u, Course b policy source 0 (begun b s) rows u ∧ rows.length = n

/-- Runs of a batch one after the other, with the number of items that each has pulled, and the first that
pulls nothing is the last. -/
inductive Rounds (b : Backend σ) (policy : Policy σ) (source : Source (Program σ) σ) :
    Run σ → List (Nat × Outcome Fault) → Run σ → Prop
  | last {s o t} (h : Round b policy source s 0 o t) : Rounds b policy source s [(0, o)] t
  | again {s n o t rounds u} (h : Round b policy source s n o t) (hn : n ≠ 0)
      (hs : Rounds b policy source t rounds u) : Rounds b policy source s ((n, o) :: rounds) u

/-- The outcomes of rounds, each moved behind the items that were pulled before it, which are `own` at
first. -/
def moved (own : Nat) : List (Nat × Outcome Fault) → List (Outcome Fault)
  | [] => []
  | (n, o) :: rounds => o.shift own :: moved (own + n) rounds

/-- A policy that never raises, and leaves the core of the world as it is. -/
def Aside (core : σ → τ) (policy : Policy σ) : Prop :=
  ∀ e w, ∃ goOn w', policy e w = .ok goOn w' ∧ core w' = core w

/-- A call that makes items as they should be, and looks at nothing but the core, nor do its items. -/
structure Feeds (core : σ → τ) (call : σ → EStateM.Result Fault σ (Item (Program σ))) : Prop where
  regular : ∀ w, Regular (call w)
  blind : Blind core call
  items : ∀ w, itemReplyBlind core (call w)

/-! ## Lemmas -/

/-! ### Outcomes of rounds -/

section

variable {rows rows' : List (Row σ)}

theorem stepOf_injective {own : Nat} {a b : Option Fault} (h : stepOf own a = stepOf own b) : a = b := by
  have hhead := congrArg (fun o => o.failures.head?) h
  simp only [head?_failures_stepOf] at hhead
  cases a <;> cases b <;> simp_all

theorem tally_append (own : Nat) (rows rows' : List (Row σ)) (o : Outcome Fault) :
    tally own (rows ++ rows') o = tally (own + rows.length) rows' (tally own rows o) := by
  induction rows generalizing own o with
  | nil => rfl
  | cons row rows ih =>
    rw [List.cons_append, tally, tally, ih, List.length_cons, Nat.add_assoc, Nat.add_comm 1]

theorem tally_eq_combine (own : Nat) (rows : List (Row σ)) (o : Outcome Fault) :
    tally own rows o = o.combine (tally own rows .empty) := by
  induction rows generalizing own o with
  | nil => exact o.combine_empty.symm
  | cons row rows ih =>
    rw [tally, tally, ih, ih (own + 1) (Outcome.combine .empty _), Outcome.empty_combine,
      Outcome.combine_assoc]

/-- Only the causes are tallied. -/
theorem tally_congr (own : Nat) (h : rows.map (·.cause) = rows'.map (·.cause)) (o : Outcome Fault) :
    tally own rows o = tally own rows' o := by
  induction rows generalizing own rows' o with
  | nil =>
    cases rows' with
    | nil => rfl
    | cons => cases h
  | cons row rows ih =>
    cases rows' with
    | nil => cases h
    | cons row' rows' =>
      obtain ⟨hcause, hrest⟩ := List.cons.inj h
      rw [tally, tally, show row.cause = row'.cause from hcause, ih _ hrest]

theorem shift_stepOf (n own : Nat) (cause : Option Fault) :
    (stepOf own cause).shift n = stepOf (own + n) cause := by
  cases cause with
  | none => exact Outcome.shift_success n own
  | some e => exact Outcome.shift_failure n own e

theorem shift_tally (n own : Nat) (rows : List (Row σ)) (o : Outcome Fault) :
    (tally own rows o).shift n = tally (own + n) rows (o.shift n) := by
  induction rows generalizing own o with
  | nil => rfl
  | cons row rows ih =>
    rw [tally, tally, ih, Outcome.shift_combine, shift_stepOf, Nat.add_right_comm]

end

/-- A policy that keeps aside says whether to go on. -/
theorem Aside.answers {core : σ → τ} {policy : Policy σ} (h : Aside core policy) (e : Fault) (w : σ) :
    ∃ goOn w', policy e w = .ok goOn w' := by
  obtain ⟨goOn, w', hw, -⟩ := h e w
  exact ⟨goOn, w', hw⟩

/-- A round comes to the tally of what it pulls. -/
theorem Round.exists_rows {b : Backend σ} {policy : Policy σ} {source : Source (Program σ) σ} {s t : Run σ}
    {n : Nat} {o : Outcome Fault} (h : Round b policy source s n o t) (hb : b.Sound)
    (hitems : itemsTame source.items) :
    ∃ rows u, Course b policy source 0 (begun b s) rows u ∧ rows.length = n ∧ o = tally 0 rows .empty ∧
      ∀ core : σ → τ, t.core core = u.core core := by
  obtain ⟨rows, u, hcourse, hrows⟩ := h.pulls
  obtain ⟨v, hrun, hworld, hcursors, hmarks⟩ := executeBatch_of_course hcourse hb hitems
  obtain ⟨ho, rfl⟩ := EStateM.Result.ok.inj (h.run.symm.trans hrun)
  exact ⟨rows, u, hcourse, hrows, ho,
    fun core => Run.core_eq_iff.1 ⟨congrArg core hworld, hcursors, hmarks⟩⟩

/-! ### Turns and courses in another run -/

section

variable {core : σ → τ} {b : Backend σ} {policy : Policy σ} {source : Source (Program σ) σ} {c own : Nat}
  {s t : Run σ}

theorem pulled_of_core (h : s.core core = t.core core) (c : Nat) : s.pulled c = t.pulled c := by
  unfold Run.pulled
  rw [(Run.core_eq_iff.2 h).2.1]

theorem core_begun (b : Backend σ) (s : Run σ) : (begun b s).core core = s.core core := rfl

/-- A turn over items that are as they should be gives the item its fate. -/
theorem Row.Carried.fate {row : Row σ} (h : row.Carried b source own) (hb : b.Sound)
    (hitems : ∀ call ∈ source.items, ∀ w, Regular (call w)) :
    Fate b row.item row.pulled row.cause row.carried := by
  obtain ⟨call, hcall, hpull⟩ := h.pull
  obtain ⟨i, u, hpull', hi⟩ := exists_pulled (hitems call (List.mem_of_getElem? hcall))
    (moveTo (bound b source) (place b source own row.before + 1) row.before)
  rw [hpull] at hpull'
  cases hpull'
  rcases fate_or_unrecorded hb row.pulled hi with ⟨cause, u, hfate⟩ | ⟨e, u, hraised⟩
  · have hsame := h.create.symm.trans (hfate.createOne own)
    obtain ⟨hstep, rfl⟩ := EStateM.Result.ok.inj hsame
    rw [stepOf_injective hstep]
    exact hfate
  · cases h.create.symm.trans (hraised.createOne own)

/-- A course without a turn begins where nothing is left. -/
theorem Course.of_nil (h : Course b policy source own s [] t) :
    t = s ∧ source.items.length ≤ place b source own s := by
  generalize hrows : ([] : List (Row σ)) = rows at h
  cases h with
  | exhausted hend => exact ⟨rfl, hend⟩
  | stopped => cases hrows
  | going => cases hrows

/-- A policy that keeps aside leaves the core as it is. -/
theorem Row.Asks.core_after {row : Row σ} (h : row.Asks policy own) (hpolicy : Aside core policy) :
    row.after.core core = row.carried.core core := by
  unfold Row.Asks at h
  cases hcause : row.cause with
  | none => rw [hcause] at h; rw [h.2]
  | some e =>
    rw [hcause] at h
    obtain ⟨w, hw, hafter⟩ := Run.onWorld_eq_ok h
    obtain ⟨goOn, w', hw', hcore⟩ := hpolicy e (failureNoted own e row.carried).world
    rw [hw] at hw'
    obtain ⟨-, rfl⟩ := EStateM.Result.ok.inj hw'
    rw [hafter]
    exact Run.core_eq_iff.1 ⟨hcore, rfl, rfl⟩

theorem aside_always (core : σ → τ) : Aside core .always := fun _ w => ⟨true, w, rfl, rfl⟩

variable (hb : b.Sound) (hblind : b.Blind core) (hpolicy : Aside core policy)
  (hc : source.cursor = some c) (hitems : ∀ call ∈ source.items, Feeds core call)

include hb hblind hpolicy hc hitems

/-- A turn of one run is a turn of another run with that core, which is never stopped. -/
theorem Row.Valid.transport {row : Row σ} (h : row.Valid b policy source own)
    (hs : row.before.core core = s.core core) (own' : Nat) :
    ∃ row' : Row σ, row'.before = s ∧ row'.cause = row.cause ∧ row'.goOn = true ∧
      row'.Valid b .always source own' ∧ row.after.core core = row'.after.core core := by
  obtain ⟨call, hcall, hpull⟩ := h.pull
  have hfeeds := hitems call (List.mem_of_getElem? hcall)
  have hplace : place b source own' s = place b source own row.before := by
    rw [place_of_cursor hc, place_of_cursor hc]
    exact (pulled_of_core hs c).symm
  obtain ⟨pulled, hpull', hpulled⟩ := hfeeds.blind.onWorld.ok (core_moveTo _ _ hs) hpull
  have hitem : itemBlind core row.item := by
    obtain ⟨w, hw, -⟩ := Run.onWorld_eq_ok hpull
    have hreply := hfeeds.items
      (moveTo (bound b source) (place b source own row.before + 1) row.before).world
    rw [hw] at hreply
    exact hreply
  obtain ⟨carried, hfate, hcarried⟩ :=
    (h.toCarried.fate hb fun call hcall => (hitems call hcall).regular).transport hblind hitem hpulled
  obtain ⟨goOn, after, hasks⟩ :=
    exists_asked (aside_always core).answers own' row.item row.cause s pulled carried
  refine ⟨⟨row.item, row.cause, goOn, s, pulled, carried, after⟩, rfl, rfl, hasks.always.1,
    ⟨⟨⟨call, ?_, ?_⟩, hfate.createOne own'⟩, hasks⟩, ?_⟩
  · rw [hplace]
    exact hcall
  · rw [hplace]
    exact hpull'
  · rw [h.asks.core_after hpolicy, hcarried]
    exact (hasks.core_after (aside_always core)).symm

/-- The turns of a round are turns of a batch that is never stopped, which goes on behind them. -/
theorem Course.transport {rows : List (Row σ)} (h : Course b policy source own s rows t) {s' : Run σ}
    (hs : s.core core = s'.core core) (own' : Nat) :
    ∃ (rows' : List (Row σ)) (t' : Run σ), rows'.map (·.cause) = rows.map (·.cause) ∧
      t.core core = t'.core core ∧
      ∀ more u, Course b .always source (own' + rows.length) t' more u →
        Course b .always source own' s' (rows' ++ more) u := by
  induction h generalizing s' own' with
  | exhausted hend => exact ⟨[], s', rfl, hs, fun more u hmore => hmore⟩
  | @stopped own row hvalid hstop =>
    obtain ⟨row', rfl, hcause, hgo, hvalid', hafter⟩ := hvalid.transport hb hblind hpolicy hc hitems hs own'
    refine ⟨[row'], row'.after, ?_, hafter, fun more u hmore => .going hvalid' hgo hmore⟩
    rw [List.map_singleton, List.map_singleton, hcause]
  | @going own row rows t hvalid hgo _ ih =>
    obtain ⟨row', rfl, hcause, hgo', hvalid', hafter⟩ := hvalid.transport hb hblind hpolicy hc hitems hs own'
    obtain ⟨rows', t', hcauses, hcore, hon⟩ := ih hafter (own' + 1)
    refine ⟨row' :: rows', t', ?_, hcore, fun more u hmore => .going hvalid' hgo' (hon more u ?_)⟩
    · rw [List.map_cons, List.map_cons, hcause, hcauses]
    · rwa [List.length_cons, Nat.add_comm rows.length, ← Nat.add_assoc] at hmore

/-- Rounds together are a batch that is never stopped. -/
theorem Rounds.together {rounds : List (Nat × Outcome Fault)} (h : Rounds b policy source s rounds t)
    {s' : Run σ} (hs : s.core core = s'.core core) (own : Nat) :
    ∃ (rows : List (Row σ)) (t' : Run σ), Course b .always source own s' rows t' ∧
      t.core core = t'.core core ∧ tally own rows .empty = Outcome.sum (moved own rounds) := by
  have htame := itemsTame_of_regular fun call hcall => (hitems call hcall).regular
  induction h generalizing s' own with
  | @last s o t h =>
    obtain ⟨rows, u, hcourse, hrows, rfl, ht⟩ := h.exists_rows hb htame
    obtain rfl := List.length_eq_zero_iff.1 hrows
    obtain ⟨rfl, hend⟩ := hcourse.of_nil
    refine ⟨[], s', .exhausted ?_, (ht core).trans hs, rfl⟩
    rw [place_of_cursor hc] at hend ⊢
    rwa [← pulled_of_core hs]
  | @again s n o t rounds u h _ _ ih =>
    obtain ⟨rows, v, hcourse, rfl, rfl, ht⟩ := h.exists_rows hb htame
    obtain ⟨rows', t', hcauses, hcore, hon⟩ :=
      hcourse.transport hb hblind hpolicy hc hitems hs own
    obtain ⟨more, u', hmore, hcore', htally⟩ := ih ((ht core).trans hcore) (own + rows.length)
    have hlength : rows'.length = rows.length := by simpa using congrArg List.length hcauses
    refine ⟨rows' ++ more, u', hon more u' hmore, hcore', ?_⟩
    calc tally own (rows' ++ more) .empty
        = (tally own rows' .empty).combine (tally (own + rows.length) more .empty) := by
          rw [tally_append, hlength, tally_eq_combine]
      _ = ((tally 0 rows .empty).shift own).combine (Outcome.sum (moved (own + rows.length) rounds)) := by
          rw [tally_congr own hcauses, htally, shift_tally, Outcome.shift_empty, Nat.zero_add]
      _ = Outcome.sum (moved own ((rows.length, tally 0 rows .empty) :: rounds)) := by
          rw [moved, Outcome.sum_cons]

end

/-! ### The end of the rounds -/

section

variable {b : Backend σ} {policy : Policy σ} {source : Source (Program σ) σ} {c own : Nat} {s t : Run σ}

/-- A course pulls every item of it from a lazy source. -/
theorem Course.onward {rows : List (Row σ)} (h : Course b policy source own s rows t) (hb : b.Sound)
    (hitems : itemsTame source.items) (hc : source.cursor = some c) :
    s.pulled c + rows.length ≤ t.pulled c := by
  have hturn : ∀ {own : Nat} {row : Row σ}, row.Valid b policy source own →
      row.before.pulled c < row.after.pulled c := by
    intro own row hvalid
    have hlt := hvalid.toCarried.onward hb hitems hc
    unfold Run.pulled at hlt ⊢
    rwa [hvalid.asks.cursors]
  induction h with
  | exhausted => exact Nat.le_refl _
  | stopped hvalid hstop => exact hturn hvalid
  | @going own row rows t hvalid hgo hs ih =>
    have hlt := hturn hvalid
    rw [List.length_cons]
    omega

/-- Where nothing is left of a source, no item is pulled. -/
theorem Course.rows_eq_nil {rows : List (Row σ)} (h : Course b policy source own s rows t)
    (hend : source.items.length ≤ place b source own s) : rows = [] := by
  have hnone : ∀ {row : Row σ}, row.Carried b source own → row.before = s → False := by
    rintro row hcarried rfl
    obtain ⟨call, hcall, -⟩ := hcarried.pull
    rw [List.getElem?_eq_none hend] at hcall
    cases hcall
  cases h with
  | exhausted => rfl
  | stopped hvalid hstop => exact (hnone hvalid.toCarried rfl).elim
  | going hvalid hgo hs => exact (hnone hvalid.toCarried rfl).elim

/-- The rounds of a batch over a lazy sequence come to an end. -/
theorem exists_rounds (hb : b.Sound) (hpolicy : ∀ e w, ∃ goOn w', policy e w = .ok goOn w')
    (hc : source.cursor = some c) (hitems : ∀ call ∈ source.items, ∀ w, Regular (call w))
    (hrecord : AllRecordable b source.items) (s : Run σ) : ∃ rounds t, Rounds b policy source s rounds t := by
  -- every round but the last leaves fewer items
  induction hleft : source.items.length - s.pulled c using Nat.strongRecOn generalizing s with
  | ind left ih =>
    obtain ⟨rows, t, u, hrun, -, hcursors, -, hcourse, -⟩ := exists_tally hb hpolicy hitems hrecord s
    have honward := hcourse.onward hb (itemsTame_of_regular hitems) hc
    cases rows with
    | nil => exact ⟨_, u, .last ⟨hrun, [], t, hcourse, rfl⟩⟩
    | cons row rows =>
      have hlt : s.pulled c < source.items.length := by
        refine Nat.lt_of_not_ge fun hend => ?_
        have hnil := hcourse.rows_eq_nil (by rwa [place_of_cursor hc])
        cases hnil
      have hpulled : u.pulled c = t.pulled c := by unfold Run.pulled; rw [hcursors]
      have hbegun : (begun b s).pulled c = s.pulled c := rfl
      rw [List.length_cons] at honward
      obtain ⟨rounds, v, hrounds⟩ := ih (source.items.length - u.pulled c) (by omega) u rfl
      exact ⟨_, v, .again ⟨hrun, _, t, hcourse, rfl⟩ (Nat.succ_ne_zero _) hrounds⟩

end

/-! ## Top theorems -/

/-- Stops at every other failure, and counts them beside the store. -/
def everyOther : Policy (Store × Nat) := fun _ w => .ok (w.2 % 2 == 1) (w.1, w.2 + 1)

/-- The store in a world that has a count besides. -/
def besideCount : Slot (Store × Nat) Store := ⟨Prod.fst, fun a w => (a, w.2)⟩

/-- A failure, a new document, two failures, that document once more, and another new one. -/
def sixCalls : List (Store × Nat → EStateM.Result Fault (Store × Nat) (Item (Program (Store × Nat)))) :=
  [fun w => .ok (.failed (.notFound "m" none)) w, fun w => .ok (.record (Program.pure (.text "b")) "x") w,
    fun w => .ok (.failed (.notFound "n" none)) w, fun w => .ok (.failed (.notFound "p" none)) w,
    fun w => .ok (.record (Program.pure (.text "b")) "y") w,
    fun w => .ok (.record (Program.pure (.text "c")) "z") w]

/-- The batch over the six, on an empty store. -/
def stoppable (policy : Policy (Store × Nat)) : Reply (Run (Store × Nat)) (Outcome Fault) :=
  Program.executeBatch (Store.backend besideCount) policy ⟨some 0, sixCalls⟩ (Run.start (⟨.empty, 0⟩, 0))

theorem feeds_sixCalls : ∀ call ∈ sixCalls, Feeds Prod.fst call := by
  have hrecord : ∀ v content, Feeds Prod.fst fun w : Store × Nat =>
      .ok (.record (Program.pure v) content) w :=
    fun _ _ => ⟨fun _ => ⟨trivial, trivial⟩, .pure _, fun _ => ⟨trivial, trivial⟩⟩
  have hfailed : ∀ e, Feeds Prod.fst fun w : Store × Nat => .ok (.failed e) w :=
    fun _ => ⟨fun _ => trivial, .pure _, fun _ => trivial⟩
  simp only [sixCalls, List.forall_mem_cons]
  exact ⟨hfailed _, hrecord _ _, hfailed _, hfailed _, hrecord _ _, hrecord _ _, List.forall_mem_nil _⟩

theorem recordable_sixCalls : AllRecordable (Store.backend besideCount) sixCalls := by
  intro call hcall w i w' hw
  refine Plain.recordable ?_ besideCount
  have hmissing : ∀ k, (Fault.notFound k none).hasMessage = true := fun _ =>
    (Fault.hasMessage_within ..).trans (Fault.hasMessage_of_text rfl)
  simp only [sixCalls, List.mem_cons, List.not_mem_nil, or_false] at hcall
  rcases hcall with rfl | rfl | rfl | rfl | rfl | rfl
  all_goals cases hw
  all_goals first
    | exact .failed (hmissing _)
    | exact .record ..

theorem positions_stoppable : positions (stoppable everyOther) = some ([], [0]) ∧
    positions (stoppable .always) = some ([1, 5], [0, 2, 3, 4]) := by
  simp only [stoppable, Program.executeBatch, run, drain, createOne, createRecord, execute_eq_evaluated, sixCalls,
    itemsOn, List.length_cons, List.length_nil]
  decide +kernel

end CasStore.Batch
