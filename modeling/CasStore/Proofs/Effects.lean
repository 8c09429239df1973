import CasStore.Proofs.Evaluation

/-!
# What a program can do to a run

A program acts on a run through the commands that its backend carries out, through its own functions,
and through what the interpreter notes.  A relation between runs that allows for these three holds
between the run before and after any program, however its stages and batches go on.

    only the event of a command counts among the commands noted      (Journal.commands_note)
    p within own, R leads along own and b → R s (s after p)          (Program.keeps)
    p within own, R follows own and b → R s (s after p)              (keeps_execute)
-/

namespace CasStore

variable {σ α β : Type}

/-! ## Algorithm -/

/-- The state that a call has left behind, whether it returned or raised. -/
def Reply.left : Reply σ α → σ
  | .ok _ s => s
  | .error _ s => s

/-- A call leads along a relation between states. -/
def Keeps (R : σ → σ → Prop) (c : Call σ α) : Prop := ∀ s, R s (Reply.left (c s))

/-- The run in which a command is carried out: it has been noted. -/
def Backend.dispatched (b : Backend σ) (c : Command) (s : Run σ) : Run σ :=
  { s with
    journal := s.journal.note "interpreter.command" .debug
      (("backend", .text b.name) :: c.summary) }

/-- The event says that a command is about to be carried out. -/
def Event.isCommand (e : Event) : Bool :=
  e.name == "interpreter.command" && (e.fields.lookup "key").isSome

/-- The descriptions of the commands dispatched so far, in order. -/
def Journal.commands (j : Journal) : List Fields := (j.events.filter Event.isCommand).map (·.fields)

/-- A relation between runs that holds across whatever a program can do: the commands of a backend, functions
that keep within `own`, what is noted of the rest, a batch if it holds across what is done in the batch,
and everything that touches neither the world nor the journal. -/
structure Leads (R : Run σ → Run σ → Prop) (own : σ → σ → Prop) (b : Backend σ) : Prop where
  trans : ∀ {s t u}, R s t → R t u → R s u
  quiet : ∀ {s t : Run σ}, t.world = s.world → t.journal = s.journal → t.batches = s.batches → R s t
  world : ∀ (s : Run σ) w, own s.world w → R s { s with world := w }
  note : ∀ {name level fields}, (∀ bound, Event.isCommand ⟨name, level, fields, bound⟩ = false) →
    Keeps R (Run.note name level fields)
  batch : ∀ {c : Call (Run σ) (Outcome Fault)}, Keeps R c →
    Keeps R (Batch.enter >>= fun _ => c.ensure Batch.finish)
  connected : Keeps R b.isConnected
  dispatch : ∀ c, Keeps R (b.dispatch c)

/-- A relation between runs that holds across the commands of a backend, across functions that keep
within `own`, and across everything that touches neither the world nor the commands noted. -/
structure Follows (R : Run σ → Run σ → Prop) (own : σ → σ → Prop) (b : Backend σ) : Prop where
  trans : ∀ {s t u}, R s t → R t u → R s u
  quiet : ∀ {s t : Run σ}, t.world = s.world → t.journal.commands = s.journal.commands → R s t
  world : ∀ (s : Run σ) w, own s.world w → R s { s with world := w }
  connected : Keeps R b.isConnected
  dispatch : ∀ c, Keeps R (b.dispatch c)

mutual

/-- Every function of a program, and of the programs it goes on with, keeps within `own`. -/
def Program.Within (own : σ → σ → Prop) : Pipeline (Root σ) σ → Prop
  | .mk root stages => Root.Within own root ∧ stagesWithin own stages

/-- The functions of a root keep within `own`. -/
def Root.Within (own : σ → σ → Prop) : Root σ → Prop
  | .pure _ => True
  | .fail _ => True
  | .command _ => True
  | .batch ⟨_, items⟩ policy => itemsWithin own items ∧ ∀ e w, own w (Reply.left (policy e w))
  | .unsupported _ => True

/-- The calls that make items keep within `own`. -/
def itemsWithin (own : σ → σ → Prop) :
    List (σ → EStateM.Result Fault σ (Item (Pipeline (Root σ) σ))) → Prop
  | [] => True
  | item :: items => (∀ w, itemReplyWithin own w (item w)) ∧ itemsWithin own items

/-- What making an item came to keeps within `own`. -/
def itemReplyWithin (own : σ → σ → Prop) (w : σ) :
    EStateM.Result Fault σ (Item (Pipeline (Root σ) σ)) → Prop
  | .ok i w' => own w w' ∧ itemWithin own i
  | .error _ w' => own w w'

/-- The programs of an item keep within `own`. -/
def itemWithin (own : σ → σ → Prop) : Item (Pipeline (Root σ) σ) → Prop
  | .failed _ => True
  | .record p _ => Program.Within own p
  | .misfit p _ creation => Program.Within own p ∧ ∀ k, Program.Within own (creation k)
  | .loose _ => True
  | .other _ => True
  | .strange _ => True

/-- The functions of stages keep within `own`. -/
def stagesWithin (own : σ → σ → Prop) : List (Stage (Root σ) σ) → Prop
  | [] => True
  | st :: ss => stageWithin own st ∧ stagesWithin own ss

/-- The function of a stage keeps within `own`. -/
def stageWithin (own : σ → σ → Prop) : Stage (Root σ) σ → Prop
  | .map f => ∀ v w, own w (Reply.left (f v w))
  | .mapErr f => ∀ e w, own w (Reply.left (f e w))
  | .andThen f => ∀ v w, replyWithin own w (f v w)
  | .orElse f => ∀ e w, replyWithin own w (f e w)

/-- What a binding function came to keeps within `own`. -/
def replyWithin (own : σ → σ → Prop) (w : σ) :
    EStateM.Result Fault σ (Next (Pipeline (Root σ) σ)) → Prop
  | .ok n w' => own w w' ∧ nextWithin own n
  | .error _ w' => own w w'

/-- The program that a stage goes on with keeps within `own`. -/
def nextWithin (own : σ → σ → Prop) : Next (Pipeline (Root σ) σ) → Prop
  | .program p => Program.Within own p
  | .value _ => True

end

/-- The job is one of an item: it names the key, or creates the document. -/
inductive Item.HasJob : Item (Batch.KeyJob σ) → Job σ → Prop
  | record {k content} : HasJob (.record k content) k.job
  | misfit {k shown creation} : HasJob (.misfit k shown creation) k.job
  | creation {k shown creation} (key : Key) : HasJob (.misfit k shown creation) (creation key).job

/-- The jobs of an item lead along a relation. -/
def ItemKeeps (R : Run σ → Run σ → Prop) (i : Item (Batch.KeyJob σ)) : Prop :=
  ∀ j, i.HasJob j → Keeps R j.run

/-- The calls that make the items of a batch keep within `own`, and the jobs of the items lead along a
relation. -/
def ItemsKeep (R : Run σ → Run σ → Prop) (own : σ → σ → Prop)
    (items : List (σ → Reply σ (Item (Batch.KeyJob σ)))) : Prop :=
  ∀ item ∈ items, ∀ w, own w (Reply.left (item w)) ∧ ∀ i w', item w = .ok i w' → ItemKeeps R i

/-! ## Lemmas -/

theorem Job.run_mk_nil (c : Call (Run σ) LooseResult) : Job.run (.mk c []) = c := by
  rw [Job.run_eq_evaluate, Pipeline.evaluate]
  exact bind_pure c

theorem Program.on_command (b : Backend σ) (c : Command) :
    Program.on b (Program.command c) = .mk (b.dispatch c) [] := by
  rw [Program.command, Program.on, Root.call, stagesOn]

theorem Program.execute_command (b : Backend σ) (c : Command) :
    (Program.command c).execute b = b.whenConnected (b.dispatch c) := by
  show b.whenConnected (Job.run (Program.on b (Program.command c))) = _
  rw [Program.on_command, Job.run_mk_nil]

/-- What is pulled has been made by a call of the source. -/
theorem Batch.pull_eq_ok {source : Source (Batch.KeyJob σ) σ} {place : Nat}
    {item : σ → Reply σ (Item (Batch.KeyJob σ))} {i : Item (Batch.KeyJob σ)} {s s' : Run σ}
    (h : Batch.pull source place item s = .ok i s') : ∃ w w', item w = .ok i w' := by
  unfold Batch.pull Run.onWorld at h
  cases hw : item (Batch.moveTo source (place + 1) s).world with
  | ok j w => rw [hw] at h; cases h; exact ⟨_, _, hw⟩
  | error e w => rw [hw] at h; cases h

theorem Result.left_map (v : Value) (f : Value → σ → Reply σ Value) (w : σ) :
    Reply.left (Result.map (.ok v) f w) = Reply.left (f v w) := by
  simp only [Result.map]
  cases f v w <;> rfl

theorem Result.left_mapErr (e : Fault) (f : Fault → σ → Reply σ Fault) (w : σ) :
    Reply.left (Result.mapErr (.error e) f w) = Reply.left (f e w) := by
  simp only [Result.mapErr]
  cases f e w <;> rfl

/-! ### Calls -/

theorem Journal.commands_note (j : Journal) (name : String) (level : Level) (fields : Fields) :
    (j.note name level fields).commands =
      j.commands ++ if Event.isCommand ⟨name, level, fields, j.bound⟩ then [fields] else [] := by
  unfold commands
  rw [events_note, List.filter_append, List.map_append]
  congr 1
  cases h : Event.isCommand ⟨name, level, fields, j.bound⟩ with
  | false => rw [List.filter_cons_of_neg (by rw [h]; decide)]; rfl
  | true => rw [List.filter_cons_of_pos h]; rfl

theorem Event.isCommand_of_ne {e : Event} (h : e.name ≠ "interpreter.command") : e.isCommand = false := by
  simp only [isCommand, Bool.and_eq_false_iff, beq_eq_false_iff_ne]
  exact .inl h

theorem Journal.commands_note_of_ne {j : Journal} {name : String} {level : Level} {fields : Fields}
    (h : name ≠ "interpreter.command") : (j.note name level fields).commands = j.commands := by
  have hnot : Event.isCommand ⟨name, level, fields, j.bound⟩ = false := Event.isCommand_of_ne h
  rw [commands_note, hnot]
  exact List.append_nil _

section

variable {R : Run σ → Run σ → Prop} (htrans : ∀ {s t u}, R s t → R t u → R s u)

include htrans

theorem Keeps.bindOf {c : Call (Run σ) α} {f : α → Call (Run σ) β} (hc : Keeps R c)
    (hf : ∀ s a s', c s = .ok a s' → R s' (Reply.left (f a s'))) : Keeps R (c >>= f) := by
  intro s
  have hs := hc s
  show R s (Reply.left (EStateM.bind c f s))
  unfold EStateM.bind
  cases h : c s with
  | error e s' => rw [h] at hs; exact hs
  | ok a s' => rw [h] at hs; exact htrans hs (hf s a s' h)

theorem Keeps.ensure {c : Call (Run σ) α} {f : Run σ → Run σ} (hc : Keeps R c) (hf : ∀ s, R s (f s)) :
    Keeps R (c.ensure f) := by
  intro s
  have hs := hc s
  unfold Call.ensure
  cases h : c s with
  | ok a s' => rw [h] at hs; exact htrans hs (hf s')
  | error e s' => rw [h] at hs; exact htrans hs (hf s')

theorem Keeps.recover {c : Call (Run σ) α} {handle : Fault → Call (Run σ) α} (hc : Keeps R c)
    (hh : ∀ e, Keeps R (handle e)) : Keeps R (c.recover handle) := by
  intro s
  have hs := hc s
  unfold Call.recover
  cases h : c s with
  | ok a s' => rw [h] at hs; exact hs
  | error e s' =>
    rw [h] at hs
    simp only
    split
    · exact htrans hs (hh e s')
    · exact hs

/-- Dispatching leads along `R` where the command does, once it has been noted: what else dispatching does
touches neither the world nor the commands noted. -/
theorem keeps_dispatch {b : Backend σ} {c : Command}
    (hquiet : ∀ {s t : Run σ}, t.world = s.world → t.journal.commands = s.journal.commands → R s t)
    (h : ∀ s, R s (Reply.left (b.perform c (b.dispatched c s)))) : Keeps R (b.dispatch c) := by
  intro s
  have hs := h s
  show R s (Reply.left (Call.recover (b.perform c) _ (b.dispatched c s)))
  unfold Call.recover
  cases hperform : b.perform c (b.dispatched c s) with
  | ok r t => rw [hperform] at hs; exact hs
  | error e t =>
    rw [hperform] at hs
    simp only
    split
    · refine htrans hs ?_
      -- writing the error into the note or into the result may raise again
      cases e.written with
      | error => exact hquiet rfl rfl
      | ok text =>
        cases e.asStore (("backend", .text b.name) :: c.summary) with
        | ok f => exact hquiet rfl (Journal.commands_note_of_ne (by decide))
        | error e' => exact hquiet rfl (Journal.commands_note_of_ne (by decide))
    · exact hs

end

/-- What follows the commands leads along a whole program. -/
theorem Follows.leads {R : Run σ → Run σ → Prop} {own : σ → σ → Prop} {b : Backend σ}
    (hR : Follows R own b) : Leads R own b where
  trans := hR.trans
  quiet hworld hjournal _ := hR.quiet hworld (by rw [hjournal])
  world := hR.world
  note hnot s := by
    refine hR.quiet rfl ?_
    show (s.journal.note _ _ _).commands = s.journal.commands
    rw [Journal.commands_note, hnot]
    exact List.append_nil _
  batch hc := Keeps.bindOf (R := R) hR.trans (fun s => hR.quiet rfl rfl) fun _ _ _ _ =>
    Keeps.ensure (R := R) (f := Batch.finish) hR.trans hc (fun _ => hR.quiet rfl rfl) _
  connected := hR.connected
  dispatch := hR.dispatch

namespace Leads

variable {R : Run σ → Run σ → Prop} {own : σ → σ → Prop} {b : Backend σ} (hR : Leads R own b)

include hR

theorem refl (s : Run σ) : R s s := hR.quiet rfl rfl rfl

theorem bindOf {c : Call (Run σ) α} {f : α → Call (Run σ) β} (hc : Keeps R c)
    (hf : ∀ s a s', c s = .ok a s' → R s' (Reply.left (f a s'))) : Keeps R (c >>= f) :=
  Keeps.bindOf (R := R) hR.trans hc hf

theorem bind {c : Call (Run σ) α} {f : α → Call (Run σ) β} (hc : Keeps R c) (hf : ∀ a, Keeps R (f a)) :
    Keeps R (c >>= f) :=
  hR.bindOf hc fun _ a s' _ => hf a s'

theorem pure (a : α) : Keeps R (Pure.pure a : Call (Run σ) α) := fun s => hR.refl s

theorem throw (e : Fault) : Keeps R (MonadExcept.throw e : Call (Run σ) α) := fun s => hR.refl s

theorem ofExcept (x : Except Fault α) : Keeps R (Call.ofExcept x : Call (Run σ) α) := by
  cases x with
  | ok a => exact hR.pure a
  | error e => exact hR.throw e

theorem get : Keeps R (MonadState.get : Call (Run σ) (Run σ)) := fun s => hR.refl s

theorem noteOf {name : String} (h : name ≠ "interpreter.command") (level : Level) (fields : Fields) :
    Keeps R (Run.note name level fields) :=
  hR.note fun _ => Event.isCommand_of_ne h

theorem onWorld {f : σ → Reply σ α} (hf : ∀ w, own w (Reply.left (f w))) : Keeps R (Run.onWorld f) := by
  intro s
  have hs := hf s.world
  unfold Run.onWorld
  cases h : f s.world with
  | ok a w => rw [h] at hs; exact hR.world s w hs
  | error e w => rw [h] at hs; exact hR.world s w hs

theorem whenConnected {work : Call (Run σ) LooseResult} (hw : Keeps R work) :
    Keeps R (b.whenConnected work) := by
  unfold Backend.whenConnected
  refine hR.bind hR.connected fun live => ?_
  split
  · exact hw
  · exact hR.bind (hR.noteOf (by decide) _ _) fun _ => hR.pure _

theorem marking (e : Fault) (s : Run σ) : R s (Run.marking e s).2 := by
  unfold Run.marking
  split
  · exact hR.quiet rfl rfl rfl
  · exact hR.refl s

theorem markingResult (r : Result) (s : Run σ) : R s (Run.markingResult r s).2 := by
  unfold Run.markingResult
  cases r with
  | ok v => exact hR.refl s
  | error e => exact hR.marking e s

theorem asResult (r : LooseResult) : Keeps R (CasStore.asResult r : Call (Run σ) Result) := by
  cases r with
  | inl r => exact fun s => hR.markingResult r s
  | inr v => exact hR.throw _

theorem raisedBy (kind : StageKind) (e : Fault) :
    Keeps R (CasStore.raisedBy kind e : Call (Run σ) LooseResult) := by
  intro s
  unfold CasStore.raisedBy
  split <;> exact hR.refl s

theorem caught {kind : StageKind} {c : σ → Reply σ Result} (hc : ∀ w, own w (Reply.left (c w))) :
    Keeps R (CasStore.caught kind c) := by
  intro s
  have hs := hR.onWorld hc s
  unfold CasStore.caught
  cases h : Run.onWorld c s with
  | ok r s' => rw [h] at hs; exact hs
  | error e s' => rw [h] at hs; exact hR.trans hs (hR.raisedBy kind e s')

/-! ### Batches -/

theorem failure (index : Int) (cause : Fault) :
    Keeps R (Batch.failure index cause : Call (Run σ) (Outcome Fault)) := by
  intro s
  unfold Batch.failure
  split
  · exact hR.marking cause s
  · exact hR.refl s

theorem execute {j : Job σ} (hj : Keeps R j.run) : Keeps R (Batch.execute b j) := hR.whenConnected hj

theorem malformedItem (index : Int) (shown : Except Fault String) :
    Keeps R (Batch.malformedItem index shown : Call (Run σ) (Outcome Fault)) :=
  hR.bind (hR.ofExcept _) fun _ => hR.failure _ _

theorem createRecord (index : Int) {creation : Key → Job σ} (hc : ∀ k, Keeps R (creation k).run)
    (shown : Except Fault String) (key : LooseResult) :
    Keeps R (Batch.createRecord b index creation shown key) := by
  unfold Batch.createRecord
  split
  · exact hR.throw _
  · exact hR.failure _ _
  · split
    · exact hR.bind (hR.ofExcept _) fun _ => hR.failure _ _
    · next k _ =>
      refine hR.bind (hR.execute (hc k)) fun r => ?_
      split
      · exact hR.pure _
      · exact hR.failure _ _
      · exact hR.malformedItem _ _

theorem createOne (index : Int) {i : Item (Batch.KeyJob σ)} (hi : ItemKeeps R i) :
    Keeps R (Batch.createOne b index i) := by
  unfold Batch.createOne
  split
  · exact hR.failure _ _
  · refine hR.bind (hR.execute (hi _ .record)) fun r => hR.createRecord _ (fun k => ?_) _ r
    rw [Job.run_mk_nil]
    exact hR.dispatch _
  · exact hR.bind (hR.execute (hi _ .misfit)) fun r => hR.createRecord _ (fun k => hi _ (.creation k)) _ r
  · have hrootless : ∀ v, Keeps R (Batch.rootless v : Job σ).run := fun v => by
      rw [Batch.rootless, Job.run_mk_nil]
      exact hR.throw _
    exact hR.bind (hR.execute (hrootless _)) fun r => hR.createRecord _ (fun _ => hrootless _) _ r
  · exact hR.malformedItem _ _
  · exact hR.malformedItem _ _
  · exact hR.malformedItem _ _

theorem moveTo (source : Source (Batch.KeyJob σ) σ) (n : Nat) (s : Run σ) :
    R s (Batch.moveTo source n s) := by
  unfold Batch.moveTo
  split
  · exact hR.refl s
  · exact hR.quiet rfl rfl rfl

theorem pull (source : Source (Batch.KeyJob σ) σ) (place : Nat)
    {item : σ → Reply σ (Item (Batch.KeyJob σ))} (hi : ∀ w, own w (Reply.left (item w))) :
    Keeps R (Batch.pull source place item) := by
  intro s
  have hmove := hR.moveTo source (place + 1) s
  have hs := hR.onWorld hi (Batch.moveTo source (place + 1) s)
  unfold Batch.pull
  cases h : Run.onWorld item (Batch.moveTo source (place + 1) s) with
  | ok i s' => rw [h] at hs; exact hR.trans hmove hs
  | error e s' =>
    rw [h] at hs
    exact hR.trans (hR.trans hmove hs) (hR.moveTo source _ s')

theorem drain {policy : Policy σ} {source : Source (Batch.KeyJob σ) σ}
    (hp : ∀ e w, own w (Reply.left (policy e w))) (hs : ItemsKeep R own source.items) (turns own' : Nat)
    (outcome : Outcome Fault) : Keeps R (Batch.drain b policy source turns own' outcome) := by
  induction turns generalizing own' outcome with
  | zero => exact hR.pure _
  | succ turns ih =>
    unfold Batch.drain
    refine hR.bind hR.get fun s => ?_
    simp only
    split
    · exact hR.pure _
    · next item hitem =>
      have hi := hs item (List.mem_of_getElem? hitem)
      refine hR.bindOf (hR.pull _ _ fun w => (hi w).1) fun s i s' h => ?_
      obtain ⟨w, w', hw⟩ := Batch.pull_eq_ok h
      refine hR.bind (hR.createOne _ ((hi w).2 i w' hw)) (fun step => ?_) s'
      split
      · exact ih _ _
      · next index cause _ =>
        refine hR.bind (hR.ofExcept _) fun text => ?_
        refine hR.bind (hR.noteOf (by decide) _ _) fun _ => ?_
        refine hR.bind (hR.onWorld fun w => hp cause w) fun goOn => ?_
        split
        · exact ih _ _
        · exact hR.pure _

/-- What is done while the id of a batch is bound leads along the relation. -/
theorem exists_inside {policy : Policy σ} {source : Source (Batch.KeyJob σ) σ}
    (hp : ∀ e w, own w (Reply.left (policy e w))) (hs : ItemsKeep R own source.items) :
    ∃ c, Keeps R c ∧ Batch.run b policy source = (Batch.enter >>= fun _ => c.ensure Batch.finish) := by
  refine ⟨_, ?_, rfl⟩
  refine hR.bind (hR.noteOf (by decide) _ _) fun _ => ?_
  refine hR.bind (hR.drain hp hs _ _ _) fun x => ?_
  exact hR.bind (hR.noteOf (by decide) _ _) fun _ => hR.pure _

theorem run {policy : Policy σ} {source : Source (Batch.KeyJob σ) σ}
    (hp : ∀ e w, own w (Reply.left (policy e w))) (hs : ItemsKeep R own source.items) :
    Keeps R (Batch.run b policy source) := by
  obtain ⟨c, hc, hrun⟩ := hR.exists_inside hp hs
  rw [hrun]
  exact hR.batch hc

theorem asRoot {policy : Policy σ} {source : Source (Batch.KeyJob σ) σ}
    (hp : ∀ e w, own w (Reply.left (policy e w))) (hs : ItemsKeep R own source.items) :
    Keeps R (Batch.asRoot b policy source) := by
  unfold Batch.asRoot
  refine hR.bind (hR.note fun _ => rfl) fun _ => ?_
  exact Keeps.recover (R := R) hR.trans (hR.bind (hR.run hp hs) fun _ => hR.pure _) fun e =>
    hR.bind (hR.ofExcept _) fun _ => hR.pure _

end Leads

/-! ### Programs -/

section

variable {R : Run σ → Run σ → Prop} {own : σ → σ → Prop} {b : Backend σ}

mutual

theorem Program.keeps (hR : Leads R own b) : ∀ p : Program σ, Program.Within own p →
    Keeps R (Program.evaluate b p)
  | .mk root stages, ⟨hroot, hstages⟩ => by
    have ih := Root.keeps hR root hroot
    have ihs := stagesKeep hR stages hstages
    rw [Program.evaluate_mk]
    exact hR.bind ih ihs

theorem Root.keeps (hR : Leads R own b) : ∀ root : Root σ, Root.Within own root →
    Keeps R (Root.call b root)
  | .pure v, _ => by
    rw [Root.call]
    exact hR.pure _
  | .fail e, _ => by
    rw [Root.call]
    exact hR.pure _
  | .command c, _ => by
    rw [Root.call]
    exact hR.dispatch c
  | .batch ⟨cursor, items⟩ policy, ⟨hitems, hpolicy⟩ => by
    have ih := itemsKeep hR items hitems
    rw [Root.call]
    exact hR.asRoot hpolicy ih
  | .unsupported name, _ => by
    rw [Root.call]
    exact hR.pure _

theorem itemsKeep (hR : Leads R own b) : ∀ items, itemsWithin own items →
    ItemsKeep R own (itemsOn b items)
  | [], _ => fun item h => by rw [itemsOn] at h; cases h
  | item :: items, ⟨hitem, hitems⟩ => by
    have ih := itemsKeep hR items hitems
    have ihr := fun w => itemReplyKeeps hR w (item w) (hitem w)
    intro i hi
    rw [itemsOn] at hi
    rcases List.mem_cons.1 hi with rfl | hi
    · exact fun w => ihr w
    · exact ih i hi

theorem itemReplyKeeps (hR : Leads R own b) (w : σ) : ∀ x, itemReplyWithin own w x →
    own w (Reply.left (itemReplyOn b x)) ∧ ∀ i w', itemReplyOn b x = .ok i w' → ItemKeeps R i
  | .ok i w', ⟨hw, hi⟩ => by
    have ih := itemKeeps hR i hi
    rw [itemReplyOn]
    exact ⟨hw, fun j w h => by cases h; exact ih⟩
  | .error e w', hw => by
    rw [itemReplyOn]
    exact ⟨hw, fun j w h => by cases h⟩

theorem itemKeeps (hR : Leads R own b) : ∀ i, itemWithin own i → ItemKeeps R (itemOn b i)
  | .failed cause, _ => fun j h => by rw [itemOn] at h; cases h
  | .record p content, hp => by
    have ih := Program.keeps hR p hp
    intro j h
    rw [itemOn] at h
    cases h
    rwa [Job.run_on]
  | .misfit p shown creation, ⟨hp, hcreation⟩ => by
    have ih := Program.keeps hR p hp
    have ihc := fun k => Program.keeps hR (creation k) (hcreation k)
    intro j h
    rw [itemOn] at h
    cases h with
    | misfit => rwa [Job.run_on]
    | creation k =>
      rw [Job.run_on]
      exact ihc k
  | .loose v, _ => fun j h => by rw [itemOn] at h; cases h
  | .other v, _ => fun j h => by rw [itemOn] at h; cases h
  | .strange shown, _ => fun j h => by rw [itemOn] at h; cases h

theorem stagesKeep (hR : Leads R own b) : ∀ ss : List (Stage (Root σ) σ), stagesWithin own ss →
    ∀ r, Keeps R (evaluateStages (Root.call b) ss r)
  | [], _, r => by
    rw [evaluateStages]
    exact hR.pure r
  | st :: ss, ⟨hst, hss⟩, r => by
    have ih := stagesKeep hR ss hss
    have ihst := stageKeeps hR st hst
    rw [evaluateStages]
    exact hR.bind (hR.bind (hR.asResult r) ihst) ih

theorem stageKeeps (hR : Leads R own b) : ∀ st : Stage (Root σ) σ, stageWithin own st →
    ∀ r, Keeps R (evaluateStage (Root.call b) st r)
  | .map f, hf, .ok v => by
    rw [evaluateStage]
    exact hR.caught fun w => Result.left_map v f w ▸ hf v w
  | .mapErr f, hf, .error e => by
    rw [evaluateStage]
    exact hR.caught fun w => Result.left_mapErr e f w ▸ hf e w
  | .andThen f, hf, .ok v => by
    intro s
    have ih := fun w => replyKeeps hR .andThen (f v w)
    rw [evaluateStage]
    exact ih s.world s (hf v s.world)
  | .orElse f, hf, .error e => by
    intro s
    have ih := fun w => replyKeeps hR .orElse (f e w)
    rw [evaluateStage]
    exact ih s.world s (hf e s.world)
  | .map f, _, .error e => fun s => hR.refl s
  | .andThen f, _, .error e => fun s => hR.refl s
  | .mapErr f, _, .ok v => fun s => hR.refl s
  | .orElse f, _, .ok v => fun s => hR.refl s

theorem replyKeeps (hR : Leads R own b) (kind : StageKind) :
    ∀ (x : EStateM.Result Fault σ (Next (Program σ))) (s : Run σ),
      replyWithin own s.world x → R s (Reply.left (evaluateReply (Root.call b) kind x s))
  | .ok n w, s, ⟨hw, hn⟩ => by
    have ih := nextKeeps hR kind n hn
    rw [evaluateReply]
    exact hR.trans (hR.world s w hw) (ih { s with world := w })
  | .error e w, s, hw => by
    rw [evaluateReply]
    exact hR.trans (hR.world s w hw) (hR.raisedBy kind e _)

theorem nextKeeps (hR : Leads R own b) (kind : StageKind) : ∀ n : Next (Program σ), nextWithin own n →
    Keeps R (evaluateNext (Root.call b) kind n)
  | .program p, hp => by
    have ih := Program.keeps hR p hp
    rw [evaluateNext]
    exact ih
  | .value v, _ => by
    rw [evaluateNext]
    exact hR.raisedBy kind _

end

end

/-! ## Top theorems -/

/-- A program whose functions keep within `own` leads along every relation that follows `own` and the
backend's commands. -/
theorem keeps_execute {R : Run σ → Run σ → Prop} {own : σ → σ → Prop} {b : Backend σ}
    (hR : Follows R own b) {p : Program σ} (hp : Program.Within own p) : Keeps R (p.execute b) := by
  refine hR.leads.execute ?_
  rw [Job.run_on]
  exact Program.keeps hR.leads p hp

end CasStore
