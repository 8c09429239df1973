import CasStore.Network
import CasStore.Proofs.Modification
import CasStore.Proofs.OddItems

/-!
# Events and their batches

A batch binds its id to the journal while it lasts, so that its events carry the id.  When it ends it
unbinds the name, whoever bound it: an id that was bound before is gone, be it that of a batch around
it.  So the events of a batch carry its id as long as no batch inside it has ended, and none afterwards.

    there is an account of all that the interpreter does             (Accountable.leads)
    and of what a store or a network does                            (accountable_backend)
    an event carries the id of its batch, or none after an inner one (Recorded.carries)
    what else is bound stays bound                                   (Recorded.unbatched)
    the events of a batch are marked so                              (batch_events_marked)
-/

namespace CasStore

variable {σ : Type}

/-! ## Algorithm -/

/-- The id of a batch that an event carries. -/
def Event.batchId? (e : Event) : Option Value := e.bound.lookup "batch_id"

/-- What happens in a stretch of a run, in order: events, and batches with what happens in them. -/
inductive Account
  | done
  | event (e : Event) (rest : Account)
  | batch (id : Value) (inside rest : Account)

namespace Account

/-- What happens in one stretch and then in another. -/
def append : Account → Account → Account
  | done, b => b
  | event e rest, b => event e (rest.append b)
  | batch id inside rest, b => batch id inside (rest.append b)

/-- All events, those of batches in their places. -/
def events : Account → List Event
  | done => []
  | event e rest => e :: rest.events
  | batch _ inside rest => inside.events ++ rest.events

/-- How many batches there are, those inside of others counted. -/
def batches : Account → Nat
  | done => 0
  | event _ rest => rest.batches
  | batch _ inside rest => inside.batches + 1 + rest.batches

/-- The id that is due at the end of a stretch: `resumed` says which one is due after a batch. -/
def due (resumed : Option Value → Option Value) (id : Option Value) : Account → Option Value
  | done => id
  | event _ rest => rest.due resumed id
  | batch _ _ rest => rest.due resumed (resumed id)

/-- Every event carries the id that is due: in a batch its own, and `resumed` says which one after it. -/
def Carries (resumed : Option Value → Option Value) : Option Value → Account → Prop
  | _, done => True
  | id, event e rest => e.batchId? = id ∧ rest.Carries resumed id
  | id, batch inner inside rest => inside.Carries resumed (some inner) ∧ rest.Carries resumed (resumed id)

/-- Every event carries the id of the innermost batch in progress. -/
abbrev Correlated (id : Option Value) (a : Account) : Prop := a.Carries (fun id => id) id

/-- Every event carries the id of the innermost batch in progress, until a batch in this one has ended:
from then on none. -/
abbrev CorrelatedAtFirst (id : Option Value) (a : Account) : Prop := a.Carries (fun _ => none) id

end Account

/-- The run in which a batch has begun. -/
def Batch.entered (s : Run σ) : Run σ :=
  { s with journal := s.journal.bind [("batch_id", Batch.name s)], batches := s.batches + 1 }

/-- The account is what happens between two runs. -/
inductive Recorded : Run σ → Account → Run σ → Prop
  | still {s t} (hjournal : t.journal = s.journal) (hbatches : t.batches = s.batches) : Recorded s .done t
  | event (s name level fields) : Recorded s (.event ⟨name, level, fields, s.journal.bound⟩ .done)
      { s with journal := s.journal.note name level fields }
  | batch {s inside t} (h : Recorded (Batch.entered s) inside t) :
      Recorded s (.batch (Batch.name s) inside .done) (Batch.finish t)
  | append {s a t b u} (h : Recorded s a t) (h' : Recorded t b u) : Recorded s (a.append b) u

/-- There is an account of what happens between two runs. -/
def Accountable (s t : Run σ) : Prop := ∃ a, Recorded s a t

/-- There is an account of whatever a backend does: it binds nothing to the journal that it does not
unbind, as a batch does. -/
structure Backend.Accountable (b : Backend σ) : Prop where
  connected : Keeps CasStore.Accountable b.isConnected
  perform : ∀ c, Keeps CasStore.Accountable (b.perform c)

/-! ## Lemmas -/

/-! ### Accounts -/

namespace Account

variable {resumed : Option Value → Option Value} {id : Option Value}

theorem events_append (a b : Account) : (a.append b).events = a.events ++ b.events := by
  induction a with
  | done => rfl
  | event e rest ih => rw [append, events, events, ih, List.cons_append]
  | batch inner inside rest _ ih => rw [append, events, events, ih, List.append_assoc]

theorem batches_append (a b : Account) : (a.append b).batches = a.batches + b.batches := by
  induction a with
  | done => rw [append, batches, Nat.zero_add]
  | event e rest ih => rw [append, batches, batches, ih]
  | batch inner inside rest _ ih => rw [append, batches, batches, ih, ← Nat.add_assoc]

theorem due_append (a b : Account) : (a.append b).due resumed id = b.due resumed (a.due resumed id) := by
  induction a generalizing id with
  | done => rfl
  | event e rest ih => exact ih
  | batch inner inside rest _ ih => exact ih

/-- What follows a stretch carries the id that is due at its end. -/
theorem carries_append {a b : Account} :
    (a.append b).Carries resumed id ↔ a.Carries resumed id ∧ b.Carries resumed (a.due resumed id) := by
  induction a generalizing id with
  | done => exact ⟨fun h => ⟨trivial, h⟩, fun h => h.2⟩
  | event e rest ih => rw [append, Carries, Carries, due, ih, and_assoc]
  | batch inner inside rest _ ih => rw [append, Carries, Carries, due, ih, and_assoc]

/-- Where no batch is inside, it makes no difference what is due after one. -/
theorem correlated_of_batches {a : Account} (h : a.batches = 0) (ha : a.Carries resumed id) :
    a.Correlated id := by
  induction a with
  | done => trivial
  | event e rest ih => exact ⟨ha.1, ih h ha.2⟩
  | batch inner inside rest _ _ =>
    rw [batches] at h
    omega

end Account

/-! ### Bound fields -/

namespace Journal

/-- The bound fields without the id of a batch. -/
abbrev unbatched (j : Journal) : Fields := (j.unbind ["batch_id"]).bound

theorem mem_unbatched {j : Journal} {f : String × Value} :
    f ∈ j.unbatched ↔ f ∈ j.bound ∧ f.1 ≠ "batch_id" := by
  refine List.mem_filter.trans (and_congr_right fun _ => ?_)
  simp

theorem lookup_unbatched (j : Journal) : j.unbatched.lookup "batch_id" = none := by
  refine List.lookup_eq_none_iff.2 fun f hf => ?_
  exact bne_iff_ne.2 (mem_unbatched.1 hf).2.symm

theorem unbatched_unbind (j : Journal) : (j.unbind ["batch_id"]).unbatched = j.unbatched := by
  refine List.filter_eq_self.2 fun f hf => ?_
  have hname := (mem_unbatched.1 hf).2
  simpa using hname

theorem unbatched_bind (j : Journal) (id : Value) :
    (j.bind [("batch_id", id)]).unbatched = j.unbatched := by
  have hentry : ∀ fields : Fields,
      (Context.setEntry "batch_id" id fields).filter (fun f => !(["batch_id"].contains f.1)) =
        fields.filter fun f => !(["batch_id"].contains f.1) := by
    intro fields
    induction fields with
    | nil => rfl
    | cons f fields ih =>
      by_cases hf : f.1 = "batch_id"
      · simp [Context.setEntry, hf]
      · simp [Context.setEntry, hf] at ih ⊢
        exact ih
  exact hentry j.bound

/-- Where no id of a batch is bound, there is none to be unbound. -/
theorem unbatched_eq_iff (j : Journal) : j.unbatched = j.bound ↔ j.bound.lookup "batch_id" = none := by
  refine List.filter_eq_self.trans (Iff.trans ?_ List.lookup_eq_none_iff.symm)
  refine forall₂_congr fun f _ => ?_
  rw [bne_iff_ne, ne_comm]
  simp

end Journal

/-! ### Runs -/

namespace Recorded

variable {s t : Run σ} {a : Account}

theorem events (h : Recorded s a t) : t.journal.events = s.journal.events ++ a.events := by
  induction h with
  | still hjournal _ => rw [hjournal, Account.events, List.append_nil]
  | event s name level fields => exact Journal.events_note ..
  | @batch s inside t h ih =>
    rw [Account.events, Account.events, List.append_nil]
    exact ih
  | append h h' ih ih' => rw [ih', ih, Account.events_append, List.append_assoc]

theorem batches (h : Recorded s a t) : t.batches = s.batches + a.batches := by
  induction h with
  | still _ hbatches => exact hbatches
  | event s name level fields => rfl
  | @batch s inside t h ih =>
    have hbegun : (Batch.entered s).batches = s.batches + 1 := rfl
    show t.batches = s.batches + (inside.batches + 1 + 0)
    omega
  | append h h' ih ih' => rw [ih', ih, Account.batches_append, Nat.add_assoc]

/-- Apart from the id of a batch what was bound is bound. -/
theorem unbatched (h : Recorded s a t) : t.journal.unbatched = s.journal.unbatched := by
  induction h with
  | still hjournal _ => rw [hjournal]
  | event s name level fields => rfl
  | @batch s inside t h ih =>
    exact t.journal.unbatched_unbind.trans (ih.trans (s.journal.unbatched_bind (Batch.name s)))
  | append h h' ih ih' => exact ih'.trans ih

/-- The id that is bound at the end is the one that is due. -/
theorem due (h : Recorded s a t) :
    t.journal.bound.lookup "batch_id" = a.due (fun _ => none) (s.journal.bound.lookup "batch_id") := by
  induction h with
  | still hjournal _ => rw [hjournal]; rfl
  | event s name level fields => rfl
  | @batch s inside t h ih => exact t.journal.lookup_unbatched
  | append h h' ih ih' => rw [ih', ih, Account.due_append]

/-- Every event carries the id of the innermost batch in progress, until a batch in this one has ended. -/
theorem carries (h : Recorded s a t) : a.CorrelatedAtFirst (s.journal.bound.lookup "batch_id") := by
  induction h with
  | still _ _ => trivial
  | event s name level fields => exact ⟨rfl, trivial⟩
  | @batch s inside t h ih =>
    have hbound : (Batch.entered s).journal.bound.lookup "batch_id" = some (Batch.name s) :=
      Context.lookup_setEntry ..
    rw [hbound] at ih
    exact ⟨ih, trivial⟩
  | append h h' ih ih' =>
    rw [h.due] at ih'
    exact Account.carries_append.2 ⟨ih, ih'⟩

end Recorded

/-! ### Programs -/

section

variable {b : Backend σ}

mutual

theorem Program.within_true : ∀ p : Program σ, Program.Within (fun _ _ => True) p
  | .mk root stages => ⟨Root.within_true root, stagesWithin_true stages⟩

theorem Root.within_true : ∀ root : Root σ, Root.Within (fun _ _ => True) root
  | .pure _ | .fail _ | .command _ | .unsupported _ => trivial
  | .batch ⟨_, items⟩ _ => ⟨itemsWithin_true items, fun _ _ => trivial⟩

theorem itemsWithin_true : ∀ items : List (σ → EStateM.Result Fault σ (Item (Pipeline (Root σ) σ))),
    itemsWithin (fun _ _ => True) items
  | [] => trivial
  | item :: items => ⟨fun w => itemReplyWithin_true w (item w), itemsWithin_true items⟩

theorem itemReplyWithin_true (w : σ) : ∀ x : EStateM.Result Fault σ (Item (Pipeline (Root σ) σ)),
    itemReplyWithin (fun _ _ => True) w x
  | .ok i _ => ⟨trivial, itemWithin_true i⟩
  | .error _ _ => trivial

theorem itemWithin_true : ∀ i : Item (Pipeline (Root σ) σ), itemWithin (fun _ _ => True) i
  | .failed _ | .loose _ | .other _ | .strange _ => trivial
  | .record p _ => Program.within_true p
  | .misfit p _ creation => ⟨Program.within_true p, fun k => Program.within_true (creation k)⟩

theorem stagesWithin_true : ∀ ss : List (Stage (Root σ) σ), stagesWithin (fun _ _ => True) ss
  | [] => trivial
  | st :: ss => ⟨stageWithin_true st, stagesWithin_true ss⟩

theorem stageWithin_true : ∀ st : Stage (Root σ) σ, stageWithin (fun _ _ => True) st
  | .map _ | .mapErr _ => fun _ _ => trivial
  | .andThen f => fun v w => replyWithin_true w (f v w)
  | .orElse f => fun e w => replyWithin_true w (f e w)

theorem replyWithin_true (w : σ) : ∀ x : EStateM.Result Fault σ (Next (Pipeline (Root σ) σ)),
    replyWithin (fun _ _ => True) w x
  | .ok n _ => ⟨trivial, nextWithin_true n⟩
  | .error _ _ => trivial

theorem nextWithin_true : ∀ n : Next (Pipeline (Root σ) σ), nextWithin (fun _ _ => True) n
  | .program p => Program.within_true p
  | .value _ => trivial

end

theorem left_ensure {α : Type} (c : Call (Run σ) α) (f : Run σ → Run σ) (s : Run σ) :
    Reply.left (c.ensure f s) = f (Reply.left (c s)) := by
  unfold Call.ensure
  cases c s <;> rfl

theorem left_entered {α : Type} (c : Call (Run σ) α) (s : Run σ) :
    Reply.left ((Batch.enter >>= fun _ => c.ensure Batch.finish) s) =
      Batch.finish (Reply.left (c (Batch.entered s))) :=
  left_ensure c Batch.finish (Batch.entered s)

namespace Accountable

theorem trans {s t u : Run σ} : Accountable s t → Accountable t u → Accountable s u
  | ⟨_, h⟩, ⟨_, h'⟩ => ⟨_, h.append h'⟩

theorem bind {α β : Type} {c : Call (Run σ) α} {f : α → Call (Run σ) β} (hc : Keeps Accountable c)
    (hf : ∀ a, Keeps Accountable (f a)) : Keeps Accountable (c >>= f) :=
  Keeps.bindOf (R := Accountable) trans hc fun _ a s _ => hf a s

theorem pure {α : Type} (a : α) : Keeps Accountable (Pure.pure a : Call (Run σ) α) := fun _ =>
  ⟨.done, .still rfl rfl⟩

theorem throw {α : Type} (e : Fault) : Keeps Accountable (MonadExcept.throw e : Call (Run σ) α) := fun _ =>
  ⟨.done, .still rfl rfl⟩

theorem ofExcept {α : Type} (x : Except Fault α) :
    Keeps Accountable (Call.ofExcept x : Call (Run σ) α) := by
  cases x with
  | ok a => exact pure a
  | error e => exact throw e

theorem note (name : String) (level : Level) (fields : Fields) :
    Keeps Accountable (Run.note name level fields : Call (Run σ) Unit) := fun s => ⟨_, .event s _ _ _⟩

theorem onWorld {α : Type} (x : σ → Reply σ α) : Keeps Accountable (Run.onWorld x) := by
  intro s
  refine ⟨.done, ?_⟩
  unfold Run.onWorld
  cases x s.world <;> exact .still rfl rfl

theorem dispatch (hb : b.Accountable) (c : Command) : Keeps Accountable (b.dispatch c) := by
  refine bind (note _ _ _) fun _ => Keeps.recover (R := Accountable) trans (hb.perform c) fun e => ?_
  refine bind (ofExcept _) fun _ => bind (note _ _ _) fun _ => ?_
  exact bind (ofExcept _) fun _ => pure _

/-- There is an account of all that the interpreter does. -/
theorem leads (hb : b.Accountable) : Leads Accountable (fun _ _ => True) b where
  trans := trans
  quiet _ hjournal hbatches := ⟨.done, .still hjournal hbatches⟩
  world _ _ _ := ⟨.done, .still rfl rfl⟩
  note _ s := ⟨_, .event s _ _ _⟩
  batch {c} hc s := by
    obtain ⟨inside, h⟩ := hc (Batch.entered s)
    rw [left_entered]
    exact ⟨_, .batch h⟩
  connected := hb.connected
  dispatch := dispatch hb

end Accountable

end

/-! ## Top theorems -/

/-- What a batch that was run from `s` has left in `t`, where `inside` is the account of what has happened
in it. -/
structure Batch.LeavesMarked (s : Run σ) (inside : Account) (t : Run σ) : Prop where
  /-- The events of the account are those that have been noted, and its batches those that have begun. -/
  events : t.journal.events = s.journal.events ++ inside.events
  batches : t.batches = s.batches + 1 + inside.batches
  /-- Every event carries the id of the innermost batch in progress, until a batch in this one has ended:
  from then on none. -/
  first : inside.CorrelatedAtFirst (some (Batch.name s))
  /-- Where no other batch is inside, every event carries the id of the batch. -/
  whole : inside.batches = 0 → inside.Correlated (some (Batch.name s))
  /-- No id is bound, and all else is bound that was. -/
  bound : t.journal.bound = s.journal.unbatched
  /-- So what was bound is bound just where no id was bound. -/
  restored : t.journal.bound = s.journal.bound ↔ s.journal.bound.lookup "batch_id" = none

/-- There is an account of every batch, whether it returns or raises, and of the batches that its programs
execute.  The events carry the ids of their batches until the first batch inside has ended, and after a
batch no id is bound any more. -/
theorem batch_events_marked {b : Backend σ} (hb : b.Accountable) (policy : Policy σ)
    (source : Source (Program σ) σ) (s : Run σ) :
    ∃ inside,
      Recorded s (.batch (Batch.name s) inside .done)
        (Reply.left (Program.executeBatch b policy source s)) ∧
      Batch.LeavesMarked s inside (Reply.left (Program.executeBatch b policy source s)) := by
  have hleads := Accountable.leads hb
  have hinside : ∃ c, Keeps Accountable c ∧ Batch.run b policy ⟨source.cursor, itemsOn b source.items⟩ =
      (Batch.enter >>= fun _ => c.ensure Batch.finish) :=
    hleads.exists_inside (fun _ _ => trivial)
      (itemsKeep hleads source.items (itemsWithin_true source.items))
  obtain ⟨c, hc, hrun⟩ := hinside
  obtain ⟨inside, h⟩ := hc (Batch.entered s)
  have hleft : Reply.left (Program.executeBatch b policy source s) =
      Batch.finish (Reply.left (c (Batch.entered s))) := by
    rw [Program.executeBatch, hrun, left_entered]
  have hbound : (Batch.finish (Reply.left (c (Batch.entered s)))).journal.bound = s.journal.unbatched :=
    h.unbatched.trans (s.journal.unbatched_bind (Batch.name s))
  have hfirst : inside.CorrelatedAtFirst (some (Batch.name s)) := by
    have hname : (Batch.entered s).journal.bound.lookup "batch_id" = some (Batch.name s) :=
      Context.lookup_setEntry ..
    rw [← hname]
    exact h.carries
  rw [hleft]
  refine ⟨inside, .batch h, h.events, h.batches, hfirst, fun hnone => ?_, hbound, ?_⟩
  · exact Account.correlated_of_batches hnone hfirst
  · rw [hbound]
    exact s.journal.unbatched_eq_iff

/-- What a driver raises is noted, and nothing else is done to the journal while its work is awaited. -/
theorem Accountable.await (d : Delivery) (t : Subject) (convert : Converter σ) :
    Keeps Accountable (d.await t convert) := by
  have htell : Keeps Accountable (d.tell t convert) := by
    unfold Delivery.tell
    cases d with
    | raised e => exact bind (ofExcept _) fun _ => bind (note _ _ _) fun _ => onWorld _
    | reply | cancelled | endless => exact onWorld _
  refine bind (Keeps.recover (R := Accountable) trans htell fun _ => pure _) fun c => ?_
  cases c.answer with
  | some r => exact pure r
  | none => exact throw _

/-- There is an account of whatever a network does, with any driver. -/
theorem Network.accountable_backend (n : Network σ) : n.backend.Accountable where
  connected s := ⟨.done, .still rfl rfl⟩
  perform c s := by
    have hlink : n.link s = .ok (n.slot.get s.world) s := rfl
    show CasStore.Accountable s (Reply.left (n.perform c s))
    rw [Network.perform, bind_of_ok hlink]
    cases (n.slot.get s.world).live with
    | none => exact ⟨.done, .still rfl rfl⟩
    | some session =>
      exact Keeps.bindOf (R := CasStore.Accountable) Accountable.trans
        (fun s => ⟨.done, .still rfl rfl⟩) (fun _ d s _ => Accountable.await d _ _ s) s

/-- A store in memory notes and binds nothing. -/
theorem Store.accountable_backend (slot : Slot σ Store) : (Store.backend slot).Accountable where
  connected s := ⟨.done, .still rfl rfl⟩
  perform c s := by
    refine ⟨.done, .still (ByCommands.journal_perform c s) ?_⟩
    show (Reply.left (Store.perform slot c s)).batches = s.batches
    unfold Store.perform
    split
    · rfl
    · split <;> rfl

/-- A batch over one item, whose key is named by a program that runs a batch over nothing. -/
def nested : Source (Program Store) Store :=
  ⟨none, [fun w => .ok (.record
    ((Program.batch ⟨none, []⟩ Policy.always).map fun _ w => .ok (.text "k") w) "x") w]⟩

/-- The names of the events, and whether they carry an id of a batch. -/
def marks (t : Run Store) : List (String × Bool) :=
  t.journal.events.map fun e => (e.name, e.batchId?.isSome)

theorem run_nested :
    (Reply.left (Program.executeBatch (Store.backend Slot.whole) .always nested
      (Run.start Store.fresh))).batches = 2 ∧
    marks (Reply.left (Program.executeBatch (Store.backend Slot.whole) .always nested
        (Run.start Store.fresh))) =
      [("batch.start", true), ("interpreter.command", true), ("batch.start", true),
        ("batch.complete", true), ("interpreter.command", false), ("batch.complete", false)] := by
  simp only [Program.executeBatch, Batch.run, Batch.drain, Batch.createOne, Batch.createRecord,
    Batch.execute_eq_evaluated, nested, itemsOn, List.length_cons, List.length_nil]
  decide +kernel

/-- The account of the batch has the batch inside it, and after that the events carry no id. -/
theorem nested_batch_marked : (Store.backend (Slot.whole : Slot Store Store)).Accountable ∧
    ∃ inside, inside.batches = 1 ∧
      Batch.LeavesMarked (Run.start Store.fresh) inside
        (Reply.left (Program.executeBatch (Store.backend Slot.whole) .always nested
          (Run.start Store.fresh))) := by
  have hb : (Store.backend (Slot.whole : Slot Store Store)).Accountable := Store.accountable_backend _
  obtain ⟨inside, -, hmarked⟩ := batch_events_marked hb .always nested (Run.start Store.fresh)
  have hbatches := hmarked.batches
  rw [run_nested.1, show (Run.start Store.fresh).batches = 0 from rfl] at hbatches
  exact ⟨hb, inside, by omega, hmarked⟩

/-- The run in which an id of a batch is bound, before any batch has begun. -/
def boundBefore : Run Store :=
  { Run.start Store.fresh with journal := Journal.empty.bind [("batch_id", .text "b-1")] }

/-- The end of a batch around another one carries no id, and an id that was bound before a batch is not
bound after it. -/
theorem outer_id_lost :
    (∃ e ∈ (Reply.left (Program.executeBatch (Store.backend Slot.whole) .always nested
        (Run.start Store.fresh))).journal.events, e.name = "batch.complete" ∧ e.batchId? = none) ∧
    boundBefore.journal.bound = [("batch_id", .text "b-1")] ∧
    (Reply.left (Program.executeBatch (Store.backend Slot.whole) .always ⟨none, []⟩
      boundBefore)).journal.bound = [] := by
  refine ⟨?_, rfl, rfl⟩
  have hlast : ("batch.complete", false) ∈ marks (Reply.left (Program.executeBatch
      (Store.backend Slot.whole) .always nested (Run.start Store.fresh))) := by
    rw [run_nested.2]
    decide
  obtain ⟨e, he, hmark⟩ := List.mem_map.1 hlast
  obtain ⟨hname, hid⟩ := Prod.mk.inj hmark
  refine ⟨e, he, hname, ?_⟩
  rw [← Option.not_isSome_iff_eq_none, hid]
  exact Bool.false_ne_true

end CasStore
