import CasStore.Proofs.Accounting

/-!
# What a program sees of the world

A world may hold more than backend and functions look at.  What they do look at is its core: they are blind
for everything else if from any two worlds with one core they come to the same, and leave worlds with one
core again.  A run has a log and a count of its batches besides, and nothing in the run looks at these.  So
where the backend and the functions of a program are blind, the program is.

    calls one after the other are blind                              (Blind.bindOf)
    a batch is blind where its items and its policy are              (blind_drain)
    a program is blind where its functions are                       (blind_evaluate)
    an item has one fate in runs with one core                       (Fate.transport)
-/

namespace CasStore

variable {σ τ α β : Type}

/-! ## Algorithm -/

/-- Two calls have come to one value, or have raised one error, and have left states with one core. -/
inductive Reply.Same (core : σ → τ) : EStateM.Result Fault σ α → EStateM.Result Fault σ α → Prop
  | ok {a s t} (h : core s = core t) : Same core (.ok a s) (.ok a t)
  | error {e s t} (h : core s = core t) : Same core (.error e s) (.error e t)

/-- A call comes to the same from states with one core, whatever else they hold. -/
def Blind (core : σ → τ) (c : σ → EStateM.Result Fault σ α) : Prop :=
  ∀ s t, core s = core t → Reply.Same core (c s) (c t)

/-- What is seen of a run: the core of its world, how far lazy sequences have been pulled, and what errors
have been marked with. -/
structure Run.Core (τ : Type) where
  world : τ
  cursors : List (Nat × Nat)
  marks : Nat

/-- The core of a run, given that of its world. -/
def Run.core (core : σ → τ) (s : Run σ) : Run.Core τ := ⟨core s.world, s.cursors, s.marks⟩

/-- A backend looks at nothing but the core. -/
structure Backend.Blind (core : σ → τ) (b : Backend σ) : Prop where
  connected : CasStore.Blind (Run.core core) b.isConnected
  perform : ∀ c, CasStore.Blind (Run.core core) (b.perform c)

section

variable (core : σ → τ)

mutual

/-- The functions of a program, and of the programs it goes on with, look at nothing but the core. -/
def Program.Blind : Pipeline (Root σ) σ → Prop
  | .mk root stages => Root.Blind root ∧ stagesBlind stages

/-- The functions of a root look at nothing but the core. -/
def Root.Blind : Root σ → Prop
  | .pure _ => True
  | .fail _ => True
  | .command _ => True
  | .batch ⟨_, items⟩ policy => itemsBlind items ∧ ∀ e, CasStore.Blind core (policy e)
  | .unsupported _ => True

/-- The calls that make items look at nothing but the core. -/
def itemsBlind : List (σ → EStateM.Result Fault σ (Item (Pipeline (Root σ) σ))) → Prop
  | [] => True
  | item :: items => (CasStore.Blind core item ∧ ∀ w, itemReplyBlind (item w)) ∧ itemsBlind items

/-- The item that was made looks at nothing but the core. -/
def itemReplyBlind : EStateM.Result Fault σ (Item (Pipeline (Root σ) σ)) → Prop
  | .ok i _ => itemBlind i
  | .error _ _ => True

/-- The programs of an item look at nothing but the core. -/
def itemBlind : Item (Pipeline (Root σ) σ) → Prop
  | .failed _ => True
  | .record p _ => Program.Blind p
  | .misfit p _ creation => Program.Blind p ∧ ∀ k, Program.Blind (creation k)
  | .loose _ => True
  | .other _ => True
  | .strange _ => True

/-- The functions of stages look at nothing but the core. -/
def stagesBlind : List (Stage (Root σ) σ) → Prop
  | [] => True
  | st :: ss => stageBlind st ∧ stagesBlind ss

/-- The function of a stage looks at nothing but the core. -/
def stageBlind : Stage (Root σ) σ → Prop
  | .map f => ∀ v, CasStore.Blind core (f v)
  | .mapErr f => ∀ e, CasStore.Blind core (f e)
  | .andThen f => ∀ v, CasStore.Blind core (f v) ∧ ∀ w, replyBlind (f v w)
  | .orElse f => ∀ e, CasStore.Blind core (f e) ∧ ∀ w, replyBlind (f e w)

/-- The program that a binding function came to looks at nothing but the core. -/
def replyBlind : EStateM.Result Fault σ (Next (Pipeline (Root σ) σ)) → Prop
  | .ok n _ => nextBlind n
  | .error _ _ => True

/-- The program that a stage goes on with looks at nothing but the core. -/
def nextBlind : Next (Pipeline (Root σ) σ) → Prop
  | .program p => Program.Blind p
  | .value _ => True

end

end

/-- The jobs of an item look at nothing but the core. -/
def JobsBlind (core : σ → τ) (i : Item (Batch.KeyJob σ)) : Prop :=
  ∀ j, i.HasJob j → Blind (Run.core core) j.run

/-! ## Lemmas -/

/-! ### Runs with one core -/

namespace Run

variable {core : σ → τ} {s t : Run σ}

theorem core_eq_iff : core s.world = core t.world ∧ s.cursors = t.cursors ∧ s.marks = t.marks ↔
    s.core core = t.core core := by
  simp only [Run.core, Core.mk.injEq]

theorem core_marking (h : s.core core = t.core core) (e : Fault) :
    (marking e s).1 = (marking e t).1 ∧ (marking e s).2.core core = (marking e t).2.core core := by
  obtain ⟨hworld, hcursors, hmarks⟩ := core_eq_iff.2 h
  unfold marking
  split
  · exact ⟨by rw [hmarks], core_eq_iff.1 ⟨hworld, hcursors, by rw [hmarks]⟩⟩
  · exact ⟨rfl, h⟩

theorem core_setPulled (h : s.core core = t.core core) (cursor n : Nat) :
    (s.setPulled cursor n).core core = (t.setPulled cursor n).core core := by
  obtain ⟨hworld, hcursors, hmarks⟩ := core_eq_iff.2 h
  exact core_eq_iff.1 ⟨hworld, congrArg (setRow cursor n) hcursors, hmarks⟩

end Run

/-! ### Calls -/

namespace Blind

section

variable {core : σ → τ} {s t : σ}

/-- From two states with one core a blind call returns one value, or raises one error. -/
theorem replies {c : σ → EStateM.Result Fault σ α} (hc : Blind core c) (h : core s = core t) :
    (∃ a s' t', c s = .ok a s' ∧ c t = .ok a t' ∧ core s' = core t') ∨
      ∃ e s' t', c s = .error e s' ∧ c t = .error e t' ∧ core s' = core t' := by
  have hsame := hc s t h
  generalize c s = left, c t = right at hsame
  cases hsame with
  | ok h' => exact .inl ⟨_, _, _, rfl, rfl, h'⟩
  | error h' => exact .inr ⟨_, _, _, rfl, rfl, h'⟩

/-- What a blind call returns from one state, it returns from any other state with that core. -/
theorem ok {c : σ → EStateM.Result Fault σ α} (hc : Blind core c) (h : core s = core t) {a : α} {s' : σ}
    (hs : c s = .ok a s') : ∃ t', c t = .ok a t' ∧ core s' = core t' := by
  obtain ⟨a', s'', t', hs', ht, h'⟩ | ⟨e, s'', t', hs', -, -⟩ := hc.replies h
  · obtain ⟨rfl, rfl⟩ := EStateM.Result.ok.inj (hs.symm.trans hs')
    exact ⟨t', ht, h'⟩
  · cases hs.symm.trans hs'

theorem pure (a : α) : Blind core (Pure.pure a : EStateM Fault σ α) := fun _ _ h => .ok h

theorem throw (e : Fault) : Blind core (MonadExcept.throw e : EStateM Fault σ α) := fun _ _ h => .error h

theorem ofExcept (x : Except Fault α) : Blind core (Call.ofExcept x : Call σ α) := by
  cases x with
  | ok a => exact .pure a
  | error e => exact .throw e

theorem bindOf {c : EStateM Fault σ α} {f : α → EStateM Fault σ β} (hc : Blind core c)
    (hf : ∀ a, (∃ s s', c s = .ok a s') → Blind core (f a)) : Blind core (c >>= f) := by
  intro s t h
  show Reply.Same core (EStateM.bind c f s) (EStateM.bind c f t)
  unfold EStateM.bind
  obtain ⟨a, s', t', hs, ht, h'⟩ | ⟨e, s', t', hs, ht, h'⟩ := hc.replies h
  · rw [hs, ht]
    exact hf a ⟨s, s', hs⟩ s' t' h'
  · rw [hs, ht]
    exact .error h'

theorem bind {c : EStateM Fault σ α} {f : α → EStateM Fault σ β} (hc : Blind core c)
    (hf : ∀ a, Blind core (f a)) : Blind core (c >>= f) :=
  hc.bindOf fun a _ => hf a

theorem changing {f : σ → σ} (hf : ∀ s t, core s = core t → core (f s) = core (f t)) :
    Blind core (modify f : EStateM Fault σ Unit) :=
  fun s t h => .ok (hf s t h)

theorem recover {c : Call σ α} {handle : Fault → Call σ α} (hc : Blind core c)
    (hh : ∀ e, Blind core (handle e)) : Blind core (c.recover handle) := by
  intro s t h
  unfold Call.recover
  obtain ⟨a, s', t', hs, ht, h'⟩ | ⟨e, s', t', hs, ht, h'⟩ := hc.replies h
  · rw [hs, ht]
    exact .ok h'
  · rw [hs, ht]
    dsimp only
    split
    · exact hh e _ _ h'
    · exact .error h'

theorem ensure {c : Call σ α} {f : σ → σ} (hc : Blind core c)
    (hf : ∀ s t, core s = core t → core (f s) = core (f t)) : Blind core (c.ensure f) := by
  intro s t h
  unfold Call.ensure
  obtain ⟨a, s', t', hs, ht, h'⟩ | ⟨e, s', t', hs, ht, h'⟩ := hc.replies h
  · rw [hs, ht]
    exact .ok (hf _ _ h')
  · rw [hs, ht]
    exact .error (hf _ _ h')

end

section

variable {core : σ → τ}

/-- A call on the world that is blind is so as a call on the run. -/
theorem onWorld {f : σ → Reply σ α} (hf : Blind core f) : Blind (Run.core core) (Run.onWorld f) := by
  intro s t h
  obtain ⟨hworld, hcursors, hmarks⟩ := Run.core_eq_iff.2 h
  unfold Run.onWorld
  obtain ⟨a, w, w', hs, ht, h'⟩ | ⟨e, w, w', hs, ht, h'⟩ := hf.replies hworld
  · rw [hs, ht]
    exact .ok (Run.core_eq_iff.1 ⟨h', hcursors, hmarks⟩)
  · rw [hs, ht]
    exact .error (Run.core_eq_iff.1 ⟨h', hcursors, hmarks⟩)

/-- Nothing looks at the log. -/
theorem note (name : String) (level : Level) (fields : Fields) :
    Blind (Run.core core) (Run.note name level fields : Call (Run σ) Unit) :=
  changing fun _ _ h => h

/-- An error is marked alike in runs with one core. -/
theorem marking (e : Fault) (f : Fault → α) :
    Blind (Run.core core) fun s => .ok (f (Run.marking e s).1) (Run.marking e s).2 := by
  intro s t h
  obtain ⟨hsame, h'⟩ := Run.core_marking h e
  dsimp only
  rw [hsame]
  exact .ok h'

theorem asResult (r : LooseResult) : Blind (Run.core core) (CasStore.asResult r : Call (Run σ) Result) := by
  cases r with
  | inr v => exact .throw _
  | inl r =>
    cases r with
    | ok v => exact .pure _
    | error e => exact marking e Except.error

end

end Blind

/-! ### Backends -/

namespace Backend.Blind

variable {core : σ → τ} {b : Backend σ}

theorem dispatch (hb : b.Blind core) (c : Command) : CasStore.Blind (Run.core core) (b.dispatch c) := by
  unfold Backend.dispatch
  refine .bind (.note _ _ _) fun _ => .recover (hb.perform c) fun e => ?_
  refine .bind (.ofExcept _) fun _ => .bind (.note _ _ _) fun _ => ?_
  exact .bind (.ofExcept _) fun _ => .pure _

theorem whenConnected (hb : b.Blind core) {work : Call (Run σ) LooseResult}
    (hw : CasStore.Blind (Run.core core) work) : CasStore.Blind (Run.core core) (b.whenConnected work) := by
  unfold Backend.whenConnected
  refine .bind hb.connected fun live => ?_
  split
  · exact hw
  · exact .bind (.note _ _ _) fun _ => .pure _

end Backend.Blind

/-! ### Batches -/

namespace Batch

variable {core : σ → τ} {b : Backend σ}

theorem blind_failure (index : Int) (cause : Fault) :
    Blind (Run.core core) (failure index cause : Call (Run σ) (Outcome Fault)) := by
  unfold failure
  split
  · exact .marking cause (Outcome.failure index)
  · exact .throw _

theorem blind_malformedItem (index : Int) (shown : Except Fault String) :
    Blind (Run.core core) (malformedItem index shown : Call (Run σ) (Outcome Fault)) :=
  .bind (.ofExcept _) fun _ => blind_failure _ _

theorem blind_createRecord (hb : b.Blind core) (index : Int) {creation : Key → Job σ}
    (hc : ∀ k, Blind (Run.core core) (creation k).run) (shown : Except Fault String) (key : LooseResult) :
    Blind (Run.core core) (createRecord b index creation shown key) := by
  unfold createRecord
  split
  · exact .throw _
  · exact blind_failure _ _
  · split
    · exact .bind (.ofExcept _) fun _ => blind_failure _ _
    · next k _ =>
      refine .bind (hb.whenConnected (hc k)) fun r => ?_
      split
      · exact .pure _
      · exact blind_failure _ _
      · exact blind_malformedItem _ _

theorem blind_rootless (v : Value) : Blind (Run.core core) (rootless v : Job σ).run := by
  rw [rootless, Job.run_mk_nil]
  exact .throw _

theorem blind_createOne (hb : b.Blind core) (index : Int) {i : Item (KeyJob σ)} (hi : JobsBlind core i) :
    Blind (Run.core core) (createOne b index i) := by
  unfold createOne
  split
  · exact blind_failure _ _
  · next k content =>
    refine .bind (hb.whenConnected (hi _ .record)) fun key => blind_createRecord hb _ (fun k => ?_) _ key
    rw [Job.run_mk_nil]
    exact hb.dispatch _
  · next k shown creation =>
    exact .bind (hb.whenConnected (hi _ .misfit)) fun key =>
      blind_createRecord hb _ (fun k => hi _ (.creation k)) _ key
  · exact .bind (hb.whenConnected (blind_rootless _)) fun key =>
      blind_createRecord hb _ (fun _ => blind_rootless _) _ key
  · exact blind_malformedItem _ _
  · exact blind_malformedItem _ _
  · exact blind_malformedItem _ _

theorem core_moveTo (source : Source (KeyJob σ) σ) (n : Nat) {s t : Run σ} (h : s.core core = t.core core) :
    (moveTo source n s).core core = (moveTo source n t).core core := by
  unfold moveTo
  split
  · exact h
  · exact Run.core_setPulled h _ n

theorem position_of_core (source : Source (KeyJob σ) σ) (own : Nat) {s t : Run σ}
    (h : s.core core = t.core core) : position source own s = position source own t := by
  obtain ⟨-, hcursors, -⟩ := Run.core_eq_iff.2 h
  unfold position Run.pulled
  rw [hcursors]

theorem blind_pull (source : Source (KeyJob σ) σ) (n : Nat) {item : σ → Reply σ (Item (KeyJob σ))}
    (hitem : Blind core item) : Blind (Run.core core) (pull source n item) := by
  intro s t h
  unfold pull
  obtain ⟨i, s', t', hs, ht, h'⟩ | ⟨e, s', t', hs, ht, h'⟩ :=
    hitem.onWorld.replies (core_moveTo source (n + 1) h)
  · rw [hs, ht]
    exact .ok h'
  · rw [hs, ht]
    exact .error (core_moveTo source _ h')

/-- What the items of a source and its policy look at in a batch. -/
structure SourceBlind (core : σ → τ) (policy : Policy σ) (source : Source (KeyJob σ) σ) : Prop where
  items : ∀ item ∈ source.items, Blind core item ∧ ∀ w i w', item w = .ok i w' → JobsBlind core i
  policy : ∀ e, Blind core (policy e)

theorem blind_drain (hb : b.Blind core) {policy : Policy σ} {source : Source (KeyJob σ) σ}
    (hs : SourceBlind core policy source) (turns own : Nat) (outcome : Outcome Fault) :
    Blind (Run.core core) (drain b policy source turns own outcome) := by
  induction turns generalizing own outcome with
  | zero => exact .pure _
  | succ turns ih =>
    intro s t h
    rw [drain_succ, drain_succ, position_of_core source own h]
    cases hplace : source.items[position source own t]? with
    | none => exact .ok h
    | some item =>
      obtain ⟨hitem, hjobs⟩ := hs.items item (List.mem_of_getElem? hplace)
      refine Blind.bindOf (blind_pull source _ hitem) (fun i hi => ?_) s t h
      obtain ⟨_, _, hpull⟩ := hi
      obtain ⟨w, w', hw⟩ := Batch.pull_eq_ok hpull
      refine .bind (blind_createOne hb _ (hjobs w i w' hw)) fun step => ?_
      split
      · exact ih _ _
      · next cause _ =>
        refine .bind (.ofExcept _) fun _ => .bind (.note _ _ _) fun _ => ?_
        refine .bind (hs.policy cause).onWorld fun goOn => ?_
        split
        · exact ih _ _
        · exact .pure _

theorem blind_run (hb : b.Blind core) {policy : Policy σ} {source : Source (KeyJob σ) σ}
    (hs : SourceBlind core policy source) : Blind (Run.core core) (run b policy source) := by
  unfold run
  refine .bind (.changing fun _ _ h => h) fun _ => .ensure ?_ fun _ _ h => h
  refine .bind (.note _ _ _) fun _ => .bind (blind_drain hb hs _ _ _) fun x => ?_
  exact .bind (.note _ _ _) fun _ => .pure _

theorem blind_asRoot (hb : b.Blind core) {policy : Policy σ} {source : Source (KeyJob σ) σ}
    (hs : SourceBlind core policy source) : Blind (Run.core core) (asRoot b policy source) := by
  unfold asRoot
  refine .bind (.note _ _ _) fun _ => .recover ?_ fun e => .bind (.ofExcept _) fun _ => .pure _
  exact .bind (blind_run hb hs) fun _ => .pure _

end Batch

/-! ### Programs -/

section

variable {core : σ → τ} {b : Backend σ}

theorem blind_itemReplyOn {item : σ → EStateM.Result Fault σ (Item (Pipeline (Root σ) σ))}
    (hitem : Blind core item) : Blind core fun w => itemReplyOn b (item w) := by
  intro s t h
  dsimp only
  obtain ⟨i, s', t', hs, ht, h'⟩ | ⟨e, s', t', hs, ht, h'⟩ := hitem.replies h
  · rw [hs, ht, itemReplyOn, itemReplyOn]
    exact .ok h'
  · rw [hs, ht, itemReplyOn, itemReplyOn]
    exact .error h'

theorem blind_map {f : Value → σ → Reply σ Value} (hf : ∀ v, Blind core (f v)) (r : Result) :
    Blind core (Result.map r f) := by
  intro s t h
  cases r with
  | error e => exact .ok h
  | ok v =>
    unfold Result.map
    dsimp only
    obtain ⟨a, s', t', hs, ht, h'⟩ | ⟨e, s', t', hs, ht, h'⟩ := (hf v).replies h
    · rw [hs, ht]
      exact .ok h'
    · rw [hs, ht]
      exact .error h'

theorem blind_mapErr {f : Fault → σ → Reply σ Fault} (hf : ∀ e, Blind core (f e)) (r : Result) :
    Blind core (Result.mapErr r f) := by
  intro s t h
  cases r with
  | ok v => exact .ok h
  | error e =>
    unfold Result.mapErr
    dsimp only
    obtain ⟨a, s', t', hs, ht, h'⟩ | ⟨e', s', t', hs, ht, h'⟩ := (hf e).replies h
    · rw [hs, ht]
      exact .ok h'
    · rw [hs, ht]
      exact .error h'

theorem blind_raisedBy (kind : StageKind) (e : Fault) :
    Blind (Run.core core) (raisedBy kind e : Call (Run σ) LooseResult) := by
  unfold raisedBy
  split
  · exact .pure _
  · exact .throw _

theorem blind_caught (kind : StageKind) {c : σ → Reply σ Result} (hc : Blind core c) :
    Blind (Run.core core) (caught kind c) := by
  intro s t h
  unfold caught
  obtain ⟨r, s', t', hs, ht, h'⟩ | ⟨e, s', t', hs, ht, h'⟩ := hc.onWorld.replies h
  · rw [hs, ht]
    exact .ok h'
  · rw [hs, ht]
    exact blind_raisedBy kind e _ _ h'

/-- What a binding function came to goes on alike, where the program that it answered with does. -/
theorem same_evaluateReply (kind : StageKind) {x y : EStateM.Result Fault σ (Next (Program σ))}
    (hxy : Reply.Same core x y)
    (hx : ∀ n w, x = .ok n w → Blind (Run.core core) (evaluateNext (Root.call b) kind n))
    {s t : Run σ} (h : s.core core = t.core core) :
    Reply.Same (Run.core core) (evaluateReply (Root.call b) kind x s) (evaluateReply (Root.call b) kind y t) := by
  obtain ⟨-, hcursors, hmarks⟩ := Run.core_eq_iff.2 h
  cases hxy with
  | @ok n w w' hw =>
    rw [evaluateReply, evaluateReply]
    exact hx n w rfl _ _ (Run.core_eq_iff.1 ⟨hw, hcursors, hmarks⟩)
  | @error e w w' hw =>
    have h' : Run.core core { s with world := w } = Run.core core { t with world := w' } :=
      Run.core_eq_iff.1 ⟨hw, hcursors, hmarks⟩
    rw [evaluateReply, evaluateReply]
    exact blind_raisedBy kind e _ _ h'

mutual

theorem blind_evaluate (hb : b.Blind core) : ∀ p : Program σ, Program.Blind core p →
    Blind (Run.core core) (Program.evaluate b p)
  | .mk root stages, ⟨hroot, hstages⟩ => by
    have ih := blind_call hb root hroot
    have ihs := blind_evaluateStages hb stages hstages
    rw [Program.evaluate_mk]
    exact .bind ih ihs

theorem blind_call (hb : b.Blind core) : ∀ root : Root σ, Root.Blind core root →
    Blind (Run.core core) (Root.call b root)
  | .pure v, _ => by
    rw [Root.call]
    exact .pure _
  | .fail e, _ => by
    rw [Root.call]
    exact .pure _
  | .command c, _ => by
    rw [Root.call]
    exact hb.dispatch c
  | .batch ⟨cursor, items⟩ policy, ⟨hitems, hpolicy⟩ => by
    have ih := blind_itemsOn hb items hitems
    rw [Root.call]
    exact Batch.blind_asRoot hb ⟨ih, hpolicy⟩
  | .unsupported name, _ => by
    rw [Root.call]
    exact .pure _

theorem blind_itemsOn (hb : b.Blind core) : ∀ items, itemsBlind core items →
    ∀ item ∈ itemsOn b items, Blind core item ∧ ∀ w i w', item w = .ok i w' → JobsBlind core i
  | [], _ => fun item h => by rw [itemsOn] at h; cases h
  | item :: items, ⟨⟨hitem, hreplies⟩, hitems⟩ => by
    have ih := blind_itemsOn hb items hitems
    have ihr := fun w => jobsBlind_itemReplyOn hb (item w) (hreplies w)
    intro i hi
    rw [itemsOn] at hi
    rcases List.mem_cons.1 hi with rfl | hi
    · exact ⟨blind_itemReplyOn hitem, ihr⟩
    · exact ih i hi

theorem jobsBlind_itemReplyOn (hb : b.Blind core) : ∀ x, itemReplyBlind core x →
    ∀ i w', itemReplyOn b x = .ok i w' → JobsBlind core i
  | .ok i w, hi => by
    have ih := jobsBlind_itemOn hb i hi
    intro j w' h
    rw [itemReplyOn] at h
    cases h
    exact ih
  | .error e w, _ => fun i w' h => by rw [itemReplyOn] at h; cases h

theorem jobsBlind_itemOn (hb : b.Blind core) : ∀ i, itemBlind core i → JobsBlind core (itemOn b i)
  | .failed cause, _ => fun j h => by rw [itemOn] at h; cases h
  | .record p content, hp => by
    have ih := blind_evaluate hb p hp
    intro j h
    rw [itemOn] at h
    cases h
    rwa [Job.run_on]
  | .misfit p shown creation, ⟨hp, hcreation⟩ => by
    have ih := blind_evaluate hb p hp
    have ihc := fun k => blind_evaluate hb (creation k) (hcreation k)
    intro j h
    rw [itemOn] at h
    cases h with
    | misfit => rwa [Job.run_on]
    | creation k =>
      rw [Job.run_on]
      exact ihc k
  | .loose v, _ => fun j h => by rw [itemOn] at h; cases h
  | .other v, _ => fun j h => by rw [itemOn] at h; cases h
  | .strange shown, _ => fun j h => by rw [itemOn] at h; cases h

theorem blind_evaluateStages (hb : b.Blind core) : ∀ ss : List (Stage (Root σ) σ), stagesBlind core ss →
    ∀ r, Blind (Run.core core) (evaluateStages (Root.call b) ss r)
  | [], _, r => by
    rw [evaluateStages]
    exact .pure _
  | st :: ss, ⟨hst, hss⟩, r => by
    have ih := blind_evaluateStages hb ss hss
    have ihst := blind_evaluateStage hb st hst
    rw [evaluateStages]
    exact .bind (.bind (.asResult r) ihst) ih

theorem blind_evaluateStage (hb : b.Blind core) : ∀ st : Stage (Root σ) σ, stageBlind core st →
    ∀ r, Blind (Run.core core) (evaluateStage (Root.call b) st r)
  | .map f, hf, r => by
    rw [evaluateStage]
    exact blind_caught .map (blind_map hf r)
  | .mapErr f, hf, r => by
    rw [evaluateStage]
    exact blind_caught .mapErr (blind_mapErr hf r)
  | .andThen f, hf, .ok v => by
    have ih := fun w => blind_evaluateNext hb .andThen (f v w) ((hf v).2 w)
    intro s t h
    rw [evaluateStage]
    exact same_evaluateReply .andThen ((hf v).1 _ _ (Run.core_eq_iff.2 h).1) (ih s.world) h
  | .orElse f, hf, .error e => by
    have ih := fun w => blind_evaluateNext hb .orElse (f e w) ((hf e).2 w)
    intro s t h
    rw [evaluateStage]
    exact same_evaluateReply .orElse ((hf e).1 _ _ (Run.core_eq_iff.2 h).1) (ih s.world) h
  | .andThen f, _, .error e => by
    rw [evaluateStage]
    exact .pure _
  | .orElse f, _, .ok v => by
    rw [evaluateStage]
    exact .pure _

theorem blind_evaluateNext (hb : b.Blind core) (kind : StageKind) :
    ∀ x : EStateM.Result Fault σ (Next (Program σ)), replyBlind core x →
      ∀ n w, x = .ok n w → Blind (Run.core core) (evaluateNext (Root.call b) kind n)
  | .ok (.program p) w, hp => by
    have ih := blind_evaluate hb p hp
    intro n w' h
    cases h
    rw [evaluateNext]
    exact ih
  | .ok (.value v) w, _ => by
    intro n w' h
    cases h
    rw [evaluateNext]
    exact blind_raisedBy kind _
  | .error e w, _ => fun n w' h => by cases h

end

/-- A program is blind where the backend is, and its functions are. -/
theorem blind_execute (hb : b.Blind core) {p : Program σ} (hp : Program.Blind core p) :
    Blind (Run.core core) (p.execute b) := by
  rw [Program.execute_eq_whenConnected]
  exact hb.whenConnected (blind_evaluate hb p hp)

end

/-! ### Fates -/

namespace Batch

variable {core : σ → τ} {b : Backend σ}

theorem blind_parts {i : Item (Program σ)} (hi : itemBlind core i) {p : Program σ}
    {creation : Key → Program σ} (h : parts? i = some (p, creation)) :
    Program.Blind core p ∧ ∀ k, Program.Blind core (creation k) := by
  cases i with
  | record => cases h; exact ⟨hi, fun k => ⟨trivial, trivial⟩⟩
  | misfit => cases h; exact hi
  | failed => cases h
  | loose => cases h
  | other => cases h
  | strange => cases h

/-- In another run with that core an item fails alike. -/
theorem Fails.transport (hb : b.Blind core) {i : Item (Program σ)} (hi : itemBlind core i) {s s' t : Run σ}
    {e : Fault} (h : Fails b i s e t) (hs : s.core core = s'.core core) :
    ∃ t', Fails b i s' e t' ∧ t.core core = t'.core core := by
  cases h with
  | known => exact ⟨s', .known, hs⟩
  | keyless hparts hkey =>
    obtain ⟨u, hkey', hu⟩ := (blind_execute hb (blind_parts hi hparts).1).ok hs hkey
    exact ⟨u, .keyless hparts hkey', hu⟩
  | invalid hparts hkey hraw hf =>
    obtain ⟨u, hkey', hu⟩ := (blind_execute hb (blind_parts hi hparts).1).ok hs hkey
    exact ⟨u, .invalid hparts hkey' hraw hf, hu⟩
  | @refused _ _ _ _ _ k _ _ _ hparts hkey hraw hcreate =>
    obtain ⟨u, hkey', hu⟩ := (blind_execute hb (blind_parts hi hparts).1).ok hs hkey
    obtain ⟨v, hcreate', hv⟩ := (blind_execute hb ((blind_parts hi hparts).2 k)).ok hu hcreate
    exact ⟨v, .refused hparts hkey' hraw hcreate', hv⟩

/-- In another run with that core an item has the fate it has in this one. -/
theorem Fate.transport (hb : b.Blind core) {i : Item (Program σ)} (hi : itemBlind core i) {s s' t : Run σ}
    {cause : Option Fault} (h : Fate b i s cause t) (hs : s.core core = s'.core core) :
    ∃ t', Fate b i s' cause t' ∧ t.core core = t'.core core := by
  cases h with
  | fails h he =>
    obtain ⟨u, h', hu⟩ := h.transport hb hi hs
    obtain ⟨hmarked, hleft⟩ := Run.core_marking hu _
    rw [hmarked]
    exact ⟨_, .fails h' he, hleft⟩
  | creates h =>
    obtain ⟨hparts, hkey, hraw, hcreate⟩ := h
    obtain ⟨u, hkey', hu⟩ := (blind_execute hb (blind_parts hi hparts).1).ok hs hkey
    obtain ⟨v, hcreate', hv⟩ := (blind_execute hb ((blind_parts hi hparts).2 _)).ok hu hcreate
    exact ⟨v, .creates (.mk hparts hkey' hraw hcreate'), hv⟩

end Batch

/-! ### The store in memory -/

/-- The core has what is in the slot, and nothing that depends on what else the world holds. -/
structure Slot.InCore (core : σ → τ) (slot : Slot σ Store) : Prop where
  get : ∀ w w', core w = core w' → slot.get w = slot.get w'
  set : ∀ a w w', core w = core w' → core (slot.set a w) = core (slot.set a w')

theorem Store.blind_backend {core : σ → τ} {slot : Slot σ Store} (hslot : slot.InCore core) :
    (Store.backend slot).Blind core := by
  refine ⟨.pure true, fun c s t h => ?_⟩
  obtain ⟨hworld, hcursors, hmarks⟩ := Run.core_eq_iff.2 h
  show Reply.Same _ (Store.perform slot c s) (Store.perform slot c t)
  unfold Store.perform
  rw [hslot.get _ _ hworld]
  cases (slot.get t.world).apply c with
  | ok at' => exact .ok (Run.core_eq_iff.1 ⟨hslot.set _ _ _ hworld, hcursors, hmarks⟩)
  | error r =>
    dsimp only
    split
    · exact .error h
    · exact .ok h

end CasStore
