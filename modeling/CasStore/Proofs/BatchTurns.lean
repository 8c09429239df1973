import CasStore.Proofs.Endings

/-!
# The turns of a batch

A batch takes a turn for each item it pulls.  `Row` records one turn: what was pulled, what came of it,
and the run between the steps, so that one row ends where the next begins.  `Course` is a whole batch
turn by turn, `Raises` one that its sequence or its policy puts an end to, and `Broken` one that an item
does.

    a turn that goes on leaves the rest to the next turns            (drain_going)
    every turn leaves fewer items                                    (Row.Carried.ahead)
    a course is what the batch does                                  (drain_course)
    what the sequence or the policy raises, the batch raises         (executeBatch_raises)
    what an item raises, the batch raises                            (executeBatch_broken)
    a batch is broken, or takes a course                             (course_or_broken)
-/

namespace CasStore.Batch

variable {σ : Type}

/-! ## Algorithm -/

/-- A source, its items bound to a backend. -/
def bound (b : Backend σ) (source : Source (Program σ) σ) : Source (KeyJob σ) σ :=
  ⟨source.cursor, itemsOn b source.items⟩

/-- How many items of a source have been pulled, where a batch has pulled `own`. -/
abbrev place (b : Backend σ) (source : Source (Program σ) σ) (own : Nat) (s : Run σ) : Nat :=
  position (bound b source) own s

/-- One turn of a batch: the item, the cause of its failure if it failed, whether the batch goes on, and
the run before the pull, after it, after the item was carried out, and at the end. -/
structure Row (σ : Type) where
  item : Item (Program σ)
  cause : Option Fault
  goOn : Bool
  before : Run σ
  pulled : Run σ
  carried : Run σ
  after : Run σ

/-- The outcome of the item at `own`. -/
def stepOf (own : Nat) : Option Fault → Outcome Fault
  | none => .success own
  | some e => .failure own e

/-- The run after the failure of the item at `own` has been noted. -/
def failureNoted (own : Nat) (e : Fault) (s : Run σ) : Run σ :=
  { s with journal := s.journal.note "batch.item_failed" .info [("index", .int own),
      ("error_type", .text e.kindName), ("error", .text e.message)] }

/-- The run after a batch has begun. -/
def begun (b : Backend σ) (s : Run σ) : Run σ :=
  { s with
    journal := (s.journal.bind [("batch_id", name s)]).note "batch.start" .debug
      [("backend", .text b.name)]
    batches := s.batches + 1 }

namespace Row

/-- The item in place was pulled and carried out. -/
structure Carried (b : Backend σ) (source : Source (Program σ) σ) (own : Nat) (row : Row σ) : Prop where
  pull : ∃ call, source.items[place b source own row.before]? = some call ∧
    Run.onWorld call (moveTo (bound b source) (place b source own row.before + 1) row.before) =
      .ok row.item row.pulled
  create : createOne b own (itemOn b row.item) row.pulled = .ok (stepOf own row.cause) row.carried

/-- After a success the batch goes on, and the policy is not asked.  After a failure it is asked once,
about the cause, and says whether to go on. -/
def Asks (policy : Policy σ) (own : Nat) (row : Row σ) : Prop :=
  match row.cause with
  | none => row.goOn = true ∧ row.after = row.carried
  | some e => Run.onWorld (policy e) (failureNoted own e row.carried) = .ok row.goOn row.after

/-- The row records the turn of the item at `own`. -/
structure Valid (b : Backend σ) (policy : Policy σ) (source : Source (Program σ) σ) (own : Nat)
    (row : Row σ) : Prop extends Carried b source own row where
  asks : row.Asks policy own

end Row

section

variable (b : Backend σ) (policy : Policy σ) (source : Source (Program σ) σ)

/-- A batch turn by turn: it ends where no item is left, or with the first turn that does not go on. -/
inductive Course : Nat → Run σ → List (Row σ) → Run σ → Prop
  | exhausted {own s} (h : source.items.length ≤ place b source own s) : Course own s [] s
  | stopped {own} {row : Row σ} (h : row.Valid b policy source own) (hstop : row.goOn = false) :
      Course own row.before [row] row.after
  | going {own} {row : Row σ} {rows t} (h : row.Valid b policy source own) (hgo : row.goOn = true)
      (hs : Course (own + 1) row.after rows t) : Course own row.before (row :: rows) t

/-- After turns that go on, pulling an item or asking the policy raises `e`. -/
inductive Raises : Nat → Run σ → Fault → Run σ → Prop
  | pulling {own s call e t} (hcall : source.items[place b source own s]? = some call)
      (h : Run.onWorld call (moveTo (bound b source) (place b source own s + 1) s) = .error e t) :
      Raises own s e (moveTo (bound b source) source.items.length t)
  | asking {own} {row : Row σ} {cause e t} (h : row.Carried b source own) (hcause : row.cause = some cause)
      (hpolicy : Run.onWorld (policy cause) (failureNoted own cause row.carried) = .error e t) :
      Raises own row.before e t
  | later {own} {row : Row σ} {e t} (h : row.Valid b policy source own) (hgo : row.goOn = true)
      (hs : Raises (own + 1) row.after e t) : Raises own row.before e t

/-- After turns that go on, the item in place breaks the batch as `B` says: `e` is raised. -/
inductive Broken (B : Item (Program σ) → Run σ → Fault → Run σ → Prop) : Nat → Run σ → Fault → Run σ → Prop
  | here {own s call i t e u} (hcall : source.items[place b source own s]? = some call)
      (hpull : Run.onWorld call (moveTo (bound b source) (place b source own s + 1) s) = .ok i t)
      (h : B i t e u) : Broken B own s e u
  | later {own} {row : Row σ} {e t} (h : row.Valid b policy source own) (hgo : row.goOn = true)
      (hs : Broken B (own + 1) row.after e t) : Broken B own row.before e t

end

/-- The outcome so far, with the outcomes of further turns, the first of them at `own`. -/
def tally : Nat → List (Row σ) → Outcome Fault → Outcome Fault
  | _, [], outcome => outcome
  | own, row :: rows, outcome => tally (own + 1) rows (outcome.combine (stepOf own row.cause))

/-! ## Lemmas -/

/-! ### Sources -/

theorem length_itemsOn (b : Backend σ)
    (items : List (σ → EStateM.Result Fault σ (Item (Pipeline (Root σ) σ)))) :
    (itemsOn b items).length = items.length := by
  induction items with
  | nil => rw [itemsOn]; rfl
  | cons item items ih => rw [itemsOn, List.length_cons, ih, List.length_cons]

theorem getElem?_itemsOn (b : Backend σ)
    (items : List (σ → EStateM.Result Fault σ (Item (Pipeline (Root σ) σ)))) (i : Nat) :
    (itemsOn b items)[i]? = (items[i]?).map fun call s => itemReplyOn b (call s) := by
  induction items generalizing i with
  | nil => rw [itemsOn]; rfl
  | cons item items ih =>
    rw [itemsOn]
    cases i with
    | zero => rfl
    | succ i => rw [List.getElem?_cons_succ, List.getElem?_cons_succ, ih]

variable {b : Backend σ} {policy : Policy σ} {source : Source (Program σ) σ} {own : Nat} {s t : Run σ}

theorem length_bound : (bound b source).items.length = source.items.length :=
  length_itemsOn b source.items

theorem getElem?_bound (i : Nat) :
    (bound b source).items[i]? = (source.items[i]?).map fun call w => itemReplyOn b (call w) :=
  getElem?_itemsOn b source.items i

/-- A pull makes the item with the call in place, and binds it to the backend. -/
theorem pull_bound (n : Nat) (call : σ → EStateM.Result Fault σ (Item (Pipeline (Root σ) σ)))
    (s : Run σ) :
    pull (bound b source) n (fun w => itemReplyOn b (call w)) s =
      match Run.onWorld call (moveTo (bound b source) (n + 1) s) with
      | .ok i t => .ok (itemOn b i) t
      | .error e t => .error e (moveTo (bound b source) source.items.length t) := by
  unfold pull Run.onWorld
  simp only [length_bound]
  cases call (moveTo (bound b source) (n + 1) s).world with
  | ok i w => simp only [itemReplyOn]
  | error e w => simp only [itemReplyOn]

theorem itemTame_of_mem {items : List (σ → EStateM.Result Fault σ (Item (Pipeline (Root σ) σ)))}
    (h : itemsTame items) : ∀ call ∈ items, ∀ w, itemReplyTame (call w) := by
  induction items with
  | nil => intro call hcall; cases hcall
  | cons item items ih =>
    obtain ⟨hitem, hitems⟩ := h
    intro call hcall
    rcases List.mem_cons.1 hcall with rfl | hcall
    · exact hitem
    · exact ih hitems call hcall

theorem itemsTame_of_forall {items : List (σ → EStateM.Result Fault σ (Item (Pipeline (Root σ) σ)))}
    (h : ∀ call ∈ items, ∀ w, itemReplyTame (call w)) : itemsTame items := by
  induction items with
  | nil => exact trivial
  | cons call items ih =>
    exact ⟨h call (List.mem_cons_self ..), ih fun c hc => h c (List.mem_cons_of_mem _ hc)⟩

theorem Run.onWorld_eq_ok {α : Type} {f : σ → Reply σ α} {a : α} (h : Run.onWorld f s = .ok a t) :
    ∃ w, f s.world = .ok a w ∧ t = { s with world := w } := by
  unfold Run.onWorld at h
  cases hw : f s.world with
  | ok a' w => rw [hw] at h; cases h; exact ⟨w, rfl, rfl⟩
  | error e w => rw [hw] at h; cases h

theorem Run.cursors_onWorld {α : Type} {f : σ → Reply σ α} {a : α} (h : Run.onWorld f s = .ok a t) :
    t.cursors = s.cursors := by
  obtain ⟨w, -, rfl⟩ := Run.onWorld_eq_ok h
  rfl

/-- What is pulled is tame, where all items are. -/
theorem itemTame_of_onWorld {call : σ → EStateM.Result Fault σ (Item (Pipeline (Root σ) σ))}
    {i : Item (Program σ)} (hitems : itemsTame source.items) (hcall : call ∈ source.items)
    (h : Run.onWorld call s = .ok i t) : itemTame i := by
  have htame := itemTame_of_mem hitems call hcall s.world
  obtain ⟨w, hw, -⟩ := Run.onWorld_eq_ok h
  rw [hw] at htame
  exact htame

/-! ### One turn -/

/-- For a lazy source it is the run that knows the place. -/
theorem place_of_cursor {c : Nat} (hc : source.cursor = some c) (own : Nat) (s : Run σ) :
    place b source own s = s.pulled c := by
  unfold place position
  rw [show (bound b source).cursor = some c from hc]

/-- An item that was carried out has come to one success or one failure, and has rewound nothing. -/
theorem Row.Carried.ends {row : Row σ} (h : row.Carried b source own) (hb : b.Sound)
    (hitems : itemsTame source.items) :
    IsStep own (stepOf own row.cause) ∧ row.pulled.Onward row.carried := by
  obtain ⟨call, hcall, hpull⟩ := h.pull
  have htame := itemTame_of_onWorld hitems (List.mem_of_getElem? hcall) hpull
  have hfits := ends_createOne hb own (itemAnswers hb row.item htame)
    (fun v _ _ => ordinary_noPart v _) ordinary_ofNumeral row.pulled
  rw [h.create] at hfits
  exact hfits

/-- The message of a cause that is recorded can be written. -/
theorem Row.Carried.written {row : Row σ} (h : row.Carried b source own) (hb : b.Sound)
    (hitems : itemsTame source.items) {e : Fault} (he : row.cause = some e) :
    e.written = .ok e.message := by
  refine Fault.written_of_hasMessage ?_
  obtain ⟨hstep, -⟩ := h.ends hb hitems
  rw [he] at hstep
  rcases hstep with hok | ⟨c, hc, hmessage⟩
  · cases congrArg Outcome.failures hok
  · cases congrArg Outcome.failures hc
    exact hmessage

/-- An item that was carried out has been pulled from a lazy source, for all runs. -/
theorem Row.Carried.onward {row : Row σ} (h : row.Carried b source own) (hb : b.Sound)
    (hitems : itemsTame source.items) {c : Nat} (hc : source.cursor = some c) :
    row.before.pulled c < row.carried.pulled c := by
  obtain ⟨call, hcall, hpull⟩ := h.pull
  have hmoved : row.pulled.pulled c = row.before.pulled c + 1 := by
    have hcursors := Run.cursors_onWorld hpull
    rw [place_of_cursor hc] at hcursors
    unfold moveTo at hcursors
    rw [show (bound b source).cursor = some c from hc] at hcursors
    unfold Run.pulled
    rw [hcursors]
    exact Run.pulled_setPulled row.before c _
  have := (h.ends hb hitems).2 c
  omega

/-- Where the next item is carried out, the batch has moved on. -/
theorem Row.Carried.ahead {row : Row σ} (h : row.Carried b source own) (hb : b.Sound)
    (hitems : itemsTame source.items) (hown : own ≤ place b source own row.before) :
    own + 1 ≤ place b source (own + 1) row.carried := by
  unfold place position at hown ⊢
  cases hc : (bound b source).cursor with
  | none => exact Nat.le_refl _
  | some c =>
    have := h.onward hb hitems hc
    rw [hc] at hown
    simp only at hown ⊢
    omega

theorem place_of_cursors (h : t.cursors = s.cursors) :
    place b source own t = place b source own s := by
  unfold place position Run.pulled
  rw [h]

/-- Asking the policy pulls nothing. -/
theorem Row.Asks.cursors {row : Row σ} (h : row.Asks policy own) :
    row.after.cursors = row.carried.cursors := by
  unfold Row.Asks at h
  cases hcause : row.cause with
  | none => rw [hcause] at h; rw [h.2]
  | some e =>
    rw [hcause] at h
    have hsame : row.after.cursors = (failureNoted own e row.carried).cursors := Run.cursors_onWorld h
    exact hsame

theorem world_moveTo (source : Source (KeyJob σ) σ) (n : Nat) (s : Run σ) :
    (moveTo source n s).world = s.world := by
  unfold moveTo
  split <;> rfl

/-- Where `n` items have been pulled, item `n` is in place. -/
theorem place_moveTo (b : Backend σ) (n : Nat) (h : t.cursors = (moveTo (bound b source) n s).cursors) :
    place b source n t = n := by
  rw [place_of_cursors h]
  unfold place position moveTo
  split
  · rfl
  · exact Run.pulled_setPulled s _ n

/-- A policy that never stops a batch leaves everything as it is. -/
theorem Row.Asks.always {row : Row σ} (h : row.Asks .always own) :
    row.goOn = true ∧ row.after.world = row.carried.world := by
  unfold Row.Asks at h
  cases hcause : row.cause with
  | none => rw [hcause] at h; exact ⟨h.1, by rw [h.2]⟩
  | some e =>
    rw [hcause] at h
    obtain ⟨w, hw, hafter⟩ := Run.onWorld_eq_ok h
    obtain ⟨hgo, hw⟩ := EStateM.Result.ok.inj hw
    exact ⟨hgo.symm, by rw [hafter]; exact hw.symm⟩

theorem Row.Valid.ahead {row : Row σ} (h : row.Valid b policy source own) (hb : b.Sound)
    (hitems : itemsTame source.items) (hown : own ≤ place b source own row.before) :
    own + 1 ≤ place b source (own + 1) row.after := by
  rw [place_of_cursors h.asks.cursors]
  exact h.toCarried.ahead hb hitems hown

theorem head?_failures_stepOf (own : Nat) (cause : Option Fault) :
    (stepOf own cause).failures.head? = cause.map (⟨own, ·⟩) := by
  cases cause <;> rfl

/-- What is left of a turn once its item has been carried out. -/
theorem drain_carried {row : Row σ} (h : row.Carried b source own) (hb : b.Sound)
    (hitems : itemsTame source.items) (turns : Nat) (outcome : Outcome Fault) :
    drain b policy (bound b source) (turns + 1) own outcome row.before =
      match row.cause with
      | none =>
        drain b policy (bound b source) turns (own + 1) (outcome.combine (stepOf own row.cause))
          row.carried
      | some e =>
        match Run.onWorld (policy e) (failureNoted own e row.carried) with
        | .ok true t =>
          drain b policy (bound b source) turns (own + 1) (outcome.combine (stepOf own row.cause)) t
        | .ok false t => .ok (outcome.combine (stepOf own row.cause), some (own : Int)) t
        | .error f t => .error f t := by
  obtain ⟨call, hcall, hpull⟩ := h.pull
  have hpulled := @pull_bound σ b source (place b source own row.before) call row.before
  rw [hpull] at hpulled
  rw [drain_succ, getElem?_bound, hcall, Option.map_some]
  simp only [bind, EStateM.bind, hpulled, h.create, head?_failures_stepOf]
  cases hcause : row.cause with
  | none => rfl
  | some e =>
    simp only [Option.map_some, h.written hb hitems hcause]
    show EStateM.bind (Run.onWorld (policy e)) _ (failureNoted own e row.carried) = _
    simp only [EStateM.bind]
    cases Run.onWorld (policy e) (failureNoted own e row.carried) with
    | error f t => rfl
    | ok goOn t => cases goOn <;> rfl

/-- A turn that goes on leaves the rest to the next turns. -/
theorem drain_going {row : Row σ} (h : row.Valid b policy source own) (hgo : row.goOn = true)
    (hb : b.Sound) (hitems : itemsTame source.items) (turns : Nat) (outcome : Outcome Fault) :
    drain b policy (bound b source) (turns + 1) own outcome row.before =
      drain b policy (bound b source) turns (own + 1) (outcome.combine (stepOf own row.cause))
        row.after := by
  have hasks := h.asks
  unfold Row.Asks at hasks
  rw [drain_carried h.toCarried hb hitems]
  cases hcause : row.cause with
  | none => rw [hcause] at hasks; rw [hasks.2]
  | some e =>
    rw [hcause, hgo] at hasks
    simp only [hasks]

/-- A turn that does not go on is the last one. -/
theorem drain_stopped {row : Row σ} (h : row.Valid b policy source own) (hstop : row.goOn = false)
    (hb : b.Sound) (hitems : itemsTame source.items) (turns : Nat) (outcome : Outcome Fault) :
    drain b policy (bound b source) (turns + 1) own outcome row.before =
      .ok (outcome.combine (stepOf own row.cause), some (own : Int)) row.after := by
  have hasks := h.asks
  unfold Row.Asks at hasks
  rw [drain_carried h.toCarried hb hitems]
  cases hcause : row.cause with
  | none => rw [hcause, hstop] at hasks; exact absurd hasks.1 Bool.false_ne_true
  | some e =>
    rw [hcause, hstop] at hasks
    simp only [hasks]

/-! ### Many turns -/

/-- Where the batch's own count is not ahead of the place, and there is an item in place, there is room
for a turn. -/
theorem exists_turns {turns : Nat} {call : σ → EStateM.Result Fault σ (Item (Program σ))}
    (hcall : source.items[place b source own s]? = some call) (hown : own ≤ place b source own s)
    (hroom : source.items.length ≤ own + turns) : ∃ n, turns = n + 1 := by
  have hlt := (List.getElem?_eq_some_iff.1 hcall).1
  exact ⟨turns - 1, by omega⟩

theorem Row.Carried.exists_turns {row : Row σ} {turns : Nat} (h : row.Carried b source own)
    (hown : own ≤ place b source own row.before) (hroom : source.items.length ≤ own + turns) :
    ∃ n, turns = n + 1 := by
  obtain ⟨call, hcall, -⟩ := h.pull
  exact Batch.exists_turns hcall hown hroom

/-- What pulling an item or asking the policy raises goes through the turns. -/
theorem drain_raises {e : Fault} (h : Raises b policy source own s e t) (hb : b.Sound)
    (hitems : itemsTame source.items) (turns : Nat) (outcome : Outcome Fault)
    (hown : own ≤ place b source own s) (hroom : source.items.length ≤ own + turns) :
    drain b policy (bound b source) turns own outcome s = .error e t := by
  induction h generalizing turns outcome with
  | @pulling own s call e t hcall hraised =>
    obtain ⟨n, rfl⟩ := exists_turns hcall hown hroom
    have hpulled := @pull_bound σ b source (place b source own s) call s
    rw [hraised] at hpulled
    rw [drain_succ, getElem?_bound, hcall, Option.map_some]
    simp only [bind, EStateM.bind, hpulled]
  | @asking own row cause e t hcarried hcause hpolicy =>
    obtain ⟨n, rfl⟩ := hcarried.exists_turns hown hroom
    rw [drain_carried hcarried hb hitems, hcause]
    simp only [hpolicy]
  | @later own row e t hvalid hgo hs ih =>
    obtain ⟨n, rfl⟩ := hvalid.exists_turns hown hroom
    rw [drain_going hvalid hgo hb hitems]
    exact ih n _ (hvalid.ahead hb hitems hown) (by omega)

/-- A course is what the batch does. -/
theorem drain_course {rows : List (Row σ)} (h : Course b policy source own s rows t) (hb : b.Sound)
    (hitems : itemsTame source.items) (turns : Nat) (outcome : Outcome Fault)
    (hown : own ≤ place b source own s) (hroom : source.items.length ≤ own + turns) :
    ∃ stoppedAt, drain b policy (bound b source) turns own outcome s =
      .ok (tally own rows outcome, stoppedAt) t := by
  induction h generalizing turns outcome with
  | @exhausted own s hend =>
    refine ⟨none, ?_⟩
    cases turns with
    | zero => rfl
    | succ n =>
      rw [drain_succ, getElem?_bound, List.getElem?_eq_none hend]
      rfl
  | @stopped own row hvalid hstop =>
    obtain ⟨n, rfl⟩ := hvalid.exists_turns hown hroom
    exact ⟨some own, drain_stopped hvalid hstop hb hitems n outcome⟩
  | @going own row rows t hvalid hgo hs ih =>
    obtain ⟨n, rfl⟩ := hvalid.exists_turns hown hroom
    rw [drain_going hvalid hgo hb hitems]
    exact ih n _ (hvalid.ahead hb hitems hown) (by omega)

/-- A policy that never raises says whether to go on. -/
theorem exists_asked (hpolicy : ∀ e w, ∃ goOn w', policy e w = .ok goOn w') (own : Nat)
    (i : Item (Program σ)) (cause : Option Fault) (before pulled carried : Run σ) :
    ∃ goOn after, Row.Asks policy own ⟨i, cause, goOn, before, pulled, carried, after⟩ := by
  cases cause with
  | none => exact ⟨true, carried, rfl, rfl⟩
  | some e =>
    obtain ⟨goOn, w, hasked⟩ := hpolicy e (failureNoted own e carried).world
    refine ⟨goOn, { failureNoted own e carried with world := w }, ?_⟩
    show Run.onWorld (policy e) (failureNoted own e carried) = _
    unfold Run.onWorld
    rw [hasked]

section

variable {B : Item (Program σ) → Run σ → Fault → Run σ → Prop}
  {H : Item (Program σ) → Run σ → Option Fault → Run σ → Prop}

/-- What breaks a batch goes through the turns. -/
theorem drain_broken {e : Fault} (h : Broken b policy source B own s e t) (hb : b.Sound)
    (hitems : itemsTame source.items)
    (hB : ∀ i s e t (own : Nat), B i s e t → createOne b own (itemOn b i) s = .error e t) (turns : Nat)
    (outcome : Outcome Fault) (hown : own ≤ place b source own s)
    (hroom : source.items.length ≤ own + turns) :
    drain b policy (bound b source) turns own outcome s = .error e t := by
  induction h generalizing turns outcome with
  | @here own s call i t e u hcall hpull hbreaks =>
    obtain ⟨n, rfl⟩ := exists_turns hcall hown hroom
    have hpulled := @pull_bound σ b source (place b source own s) call s
    rw [hpull] at hpulled
    rw [drain_succ, getElem?_bound, hcall, Option.map_some]
    simp only [bind, EStateM.bind, hpulled, hB _ _ _ _ _ hbreaks]
  | @later own row e t hvalid hgo hs ih =>
    obtain ⟨n, rfl⟩ := hvalid.exists_turns hown hroom
    rw [drain_going hvalid hgo hb hitems]
    exact ih n _ (hvalid.ahead hb hitems hown) (by omega)

variable (hb : b.Sound) (hitems : itemsTame source.items)
  (hoffers : ∀ call ∈ source.items, ∀ s, ∃ i t, Run.onWorld call s = .ok i t ∧
    ((∃ cause u, H i t cause u) ∨ ∃ e u, B i t e u))
  (hH : ∀ i s cause t (own : Nat), H i s cause t → createOne b own (itemOn b i) s = .ok (stepOf own cause) t)
  (hpolicy : ∀ e w, ∃ goOn w', policy e w = .ok goOn w')

include hoffers hH hpolicy

/-- Where an item is in place it breaks the batch, or there is a turn that handles it. -/
theorem row_or_broken (h : place b source own s < source.items.length) :
    (∃ e t, Broken b policy source B own s e t) ∨
      ∃ row : Row σ, row.before = s ∧ row.Valid b policy source own ∧
        H row.item row.pulled row.cause row.carried := by
  have hcall := List.getElem?_eq_getElem h
  obtain ⟨i, pulled, hpull, ⟨cause, carried, hhandled⟩ | ⟨e, t, hbreaks⟩⟩ :=
    hoffers _ (List.getElem_mem h) (moveTo (bound b source) (place b source own s + 1) s)
  · obtain ⟨goOn, after, hasks⟩ := exists_asked hpolicy own i cause s pulled carried
    exact .inr ⟨⟨i, cause, goOn, s, pulled, carried, after⟩, rfl,
      ⟨⟨⟨_, hcall, hpull⟩, hH _ _ _ _ _ hhandled⟩, hasks⟩, hhandled⟩
  · exact .inl ⟨e, t, .here hcall hpull hbreaks⟩

include hb hitems

/-- A batch is broken by an item, or takes a course over items that are all handled: turn by turn, as
long as there are items and it goes on. -/
theorem course_or_broken (turns : Nat) (hown : own ≤ place b source own s)
    (hroom : source.items.length ≤ own + turns) :
    (∃ e t, Broken b policy source B own s e t) ∨
      ∃ rows t, Course b policy source own s rows t ∧
        ∀ row ∈ rows, H row.item row.pulled row.cause row.carried := by
  induction turns generalizing own s with
  | zero => exact .inr ⟨[], s, .exhausted (by omega), List.forall_mem_nil _⟩
  | succ turns ih =>
    rcases Nat.lt_or_ge (place b source own s) source.items.length with hlt | hge
    · rcases row_or_broken hoffers hH hpolicy hlt with hbroken | ⟨row, rfl, hvalid, hhandled⟩
      · exact .inl hbroken
      · cases hgo : row.goOn with
        | false => exact .inr ⟨[row], _, .stopped hvalid hgo, List.forall_mem_singleton.2 hhandled⟩
        | true =>
          have hahead := hvalid.ahead hb hitems hown
          rcases ih hahead (by omega) with ⟨e, t, hbroken⟩ | ⟨rows, t, hcourse, hall⟩
          · exact .inl ⟨e, t, .later hvalid hgo hbroken⟩
          · exact .inr ⟨row :: rows, t, .going hvalid hgo hcourse, List.forall_mem_cons.2 ⟨hhandled, hall⟩⟩
    · exact .inr ⟨[], s, .exhausted hge, List.forall_mem_nil _⟩

end

/-! ### Whole batches -/

theorem noted_begun (b : Backend σ) (s : Run σ) :
    Run.note "batch.start" .debug [("backend", .text b.name)]
      { s with journal := s.journal.bind [("batch_id", name s)], batches := s.batches + 1 } =
      .ok () (begun b s) := rfl

/-- A batch begins, takes its turns, and is finished whatever they come to. -/
theorem executeBatch_eq (b : Backend σ) (policy : Policy σ) (source : Source (Program σ) σ)
    (s : Run σ) :
    Program.executeBatch b policy source s =
      match drain b policy (bound b source) source.items.length 0 .empty (begun b s) with
      | .ok (outcome, stoppedAt) t =>
        .ok outcome (finish (Reply.left (Run.note "batch.complete" .info
          [("succeeded", .int outcome.succeeded.toList.length), ("failed", .int outcome.failures.length),
            ("stopped_at", (stoppedAt.map Value.int).getD .null)] t)))
      | .error e t => .error e (finish t) := by
  show Batch.run b policy (bound b source) s = _
  unfold Batch.run
  rw [length_bound]
  show Call.ensure _ finish
    { s with journal := s.journal.bind [("batch_id", name s)], batches := s.batches + 1 } = _
  unfold Call.ensure
  simp only [bind, EStateM.bind, noted_begun]
  cases drain b policy (bound b source) source.items.length 0 .empty (begun b s) with
  | error e t => rfl
  | ok x t => rfl

/-- What the sequence or the policy raises, the batch raises. -/
theorem executeBatch_raises {e : Fault} (h : Raises b policy source 0 (begun b s) e t) (hb : b.Sound)
    (hitems : itemsTame source.items) :
    Program.executeBatch b policy source s = .error e (finish t) := by
  rw [executeBatch_eq, drain_raises h hb hitems _ _ (Nat.zero_le _) (by omega)]

/-- What an item raises, the batch raises. -/
theorem executeBatch_broken {B : Item (Program σ) → Run σ → Fault → Run σ → Prop} {e : Fault}
    (h : Broken b policy source B 0 (begun b s) e t) (hb : b.Sound) (hitems : itemsTame source.items)
    (hB : ∀ i s e t (own : Nat), B i s e t → createOne b own (itemOn b i) s = .error e t) :
    Program.executeBatch b policy source s = .error e (finish t) := by
  rw [executeBatch_eq, drain_broken h hb hitems hB _ _ (Nat.zero_le _) (by omega)]

/-- A batch comes to the tally of its course.  Behind its last turn it only takes notes. -/
theorem executeBatch_of_course {rows : List (Row σ)} (h : Course b policy source 0 (begun b s) rows t)
    (hb : b.Sound) (hitems : itemsTame source.items) :
    ∃ u, Program.executeBatch b policy source s = .ok (tally 0 rows .empty) u ∧ u.world = t.world ∧
      u.cursors = t.cursors ∧ u.marks = t.marks := by
  obtain ⟨stoppedAt, hdrain⟩ := drain_course h hb hitems source.items.length .empty (Nat.zero_le _) (by omega)
  have hrun := executeBatch_eq b policy source s
  simp only [hdrain] at hrun
  exact ⟨_, hrun, rfl, rfl, rfl⟩

end CasStore.Batch
