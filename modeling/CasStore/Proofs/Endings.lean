import CasStore.Proofs.Effects
import CasStore.Store.Backend

/-!
# How calls end

`Ends P Q c` says how a call ends, with a value or by raising an error, and that it rewinds no lazy
sequence.  A program whose functions raise ordinary errors only always comes to a result: a stage makes
a result of what its function raises, the dispatch of a command one of what the backend raises, and the
root of a batch one of what its sequence or its policy raises.  Results are made of errors by writing
their messages, so an ordinary error is one whose message can be written.

    c ends, and f from each of its values: so does c >>= f           (Ends.bind)
    a tame program comes to a result on every sound backend          (Program.answers)
-/

namespace CasStore

variable {σ α β : Type}

/-! ## Algorithm -/

/-- No lazy sequence has been rewound between two states of a run. -/
def Run.Onward (s t : Run σ) : Prop := ∀ c, s.pulled c ≤ t.pulled c

/-- What a call from `s` came to: a value as `P` says or an error as `Q` says, with nothing rewound. -/
def Reply.Fits (P : α → Prop) (Q : Fault → Prop) (s : Run σ) : Reply (Run σ) α → Prop
  | .ok a t => P a ∧ s.Onward t
  | .error e t => Q e ∧ s.Onward t

/-- A call returns a value as `P` says or raises an error as `Q` says, and rewinds nothing. -/
def Ends (P : α → Prop) (Q : Fault → Prop) (c : Call (Run σ) α) : Prop := ∀ s, Reply.Fits P Q s (c s)

/-- No error. -/
def Never (_ : Fault) : Prop := False

/-- A call always returns a result. -/
def Answers (c : Call (Run σ) LooseResult) : Prop := Ends (fun r => r.isLeft = true) Never c

/-- A backend can always be asked whether it is connected; it carries out a command to a result or raises
an ordinary error; and it rewinds no lazy sequence. -/
structure Backend.Sound (b : Backend σ) : Prop where
  connected : Ends (fun _ => True) Never b.isConnected
  perform : ∀ c, Ends (fun r => r.isLeft = true) Ordinary (b.perform c)

/-- A result, and the message of its error can be written. -/
def Said : LooseResult → Prop
  | .inl (.ok _) => True
  | .inl (.error e) => e.hasMessage = true
  | .inr _ => False

/-- What a call came to: a value as `P` says or an error as `Q` says. -/
def Reply.Gives (P : α → Prop) (Q : Fault → Prop) : EStateM.Result Fault σ α → Prop
  | .ok a _ => P a
  | .error e _ => Q e

/-- What a function came to is a value or an ordinary error. -/
def Reply.Tame (x : EStateM.Result Fault σ α) : Prop := Reply.Gives (fun _ => True) Ordinary x

mutual

/-- The functions of a program, and of the programs it goes on with, raise ordinary errors only. -/
def Program.Tame : Pipeline (Root σ) σ → Prop
  | .mk root stages => Root.Tame root ∧ stagesTame stages

/-- The functions of a root raise ordinary errors only. -/
def Root.Tame : Root σ → Prop
  | .pure _ => True
  | .fail _ => True
  | .command _ => True
  | .batch ⟨_, items⟩ policy => itemsTame items ∧ ∀ e w, Reply.Tame (policy e w)
  | .unsupported _ => True

/-- The calls that make items raise ordinary errors only. -/
def itemsTame : List (σ → EStateM.Result Fault σ (Item (Pipeline (Root σ) σ))) → Prop
  | [] => True
  | item :: items => (∀ w, itemReplyTame (item w)) ∧ itemsTame items

/-- What making an item came to is an item or an ordinary error. -/
def itemReplyTame : EStateM.Result Fault σ (Item (Pipeline (Root σ) σ)) → Prop
  | .ok i _ => itemTame i
  | .error e _ => Ordinary e

/-- The programs of an item, and the writing of its text, raise ordinary errors only. -/
def itemTame : Item (Pipeline (Root σ) σ) → Prop
  | .failed _ => True
  | .record p _ => Program.Tame p
  | .misfit p _ creation => Program.Tame p ∧ ∀ k, Program.Tame (creation k)
  | .loose _ => True
  | .other _ => True
  | .strange shown => ∀ e, shown = .error e → Ordinary e

/-- The functions of stages raise ordinary errors only. -/
def stagesTame : List (Stage (Root σ) σ) → Prop
  | [] => True
  | st :: ss => stageTame st ∧ stagesTame ss

/-- The function of a stage raises ordinary errors only. -/
def stageTame : Stage (Root σ) σ → Prop
  | .map f => ∀ v w, Reply.Tame (f v w)
  | .mapErr f => ∀ e w, Reply.Tame (f e w)
  | .andThen f => ∀ v w, replyTame (f v w)
  | .orElse f => ∀ e w, replyTame (f e w)

/-- What a binding function came to is an answer or an ordinary error. -/
def replyTame : EStateM.Result Fault σ (Next (Pipeline (Root σ) σ)) → Prop
  | .ok n _ => nextTame n
  | .error e _ => Ordinary e

/-- The program that a stage goes on with raises ordinary errors only. -/
def nextTame : Next (Pipeline (Root σ) σ) → Prop
  | .program p => Program.Tame p
  | .value _ => True

end

/-- The jobs of an item always return results, and writing its text raises nothing but what `Q` says. -/
structure ItemAnswers (Q : Fault → Prop) (i : Item (Batch.KeyJob σ)) : Prop where
  jobs : ∀ j, i.HasJob j → Answers j.run
  strange : ∀ shown e, i = .strange shown → shown = .error e → Q e

/-! ## Lemmas -/

theorem Said.isLeft {r : LooseResult} (h : Said r) : r.isLeft = true := by
  cases r with
  | inl => rfl
  | inr => cases h

/-! ### Lazy sequences -/

namespace Run

theorem Onward.refl (s : Run σ) : s.Onward s := fun _ => Nat.le_refl _

theorem Onward.trans {s t u : Run σ} (h : s.Onward t) (h' : t.Onward u) : s.Onward u :=
  fun c => Nat.le_trans (h c) (h' c)

theorem Onward.of_cursors {s t : Run σ} (h : t.cursors = s.cursors) : s.Onward t := by
  intro c
  have hc : t.pulled c = s.pulled c := by
    unfold pulled
    rw [h]
  exact Nat.le_of_eq hc.symm

theorem lookup_setRow_of_ne {c cursor : Nat} (h : c ≠ cursor) (n : Nat) (rows : List (Nat × Nat)) :
    (setRow cursor n rows).lookup c = rows.lookup c := by
  have hne : (c == cursor) = false := beq_eq_false_iff_ne.2 h
  induction rows with
  | nil => simp [setRow, List.lookup_cons, hne]
  | cons r rows ih =>
    unfold setRow
    split
    · next hr =>
      have hne' : (c == r.1) = false := hr ▸ hne
      rw [show r = (r.1, r.2) from rfl, List.lookup_cons, List.lookup_cons, hne, hne']
    · rw [show r = (r.1, r.2) from rfl, List.lookup_cons, List.lookup_cons, ih]

theorem pulled_setPulled_of_ne {c cursor : Nat} (h : c ≠ cursor) (s : Run σ) (n : Nat) :
    (s.setPulled cursor n).pulled c = s.pulled c := by
  simp only [pulled, setPulled, lookup_setRow_of_ne h]

theorem Onward.setPulled {s : Run σ} {cursor n : Nat} (h : s.pulled cursor ≤ n) :
    s.Onward (s.setPulled cursor n) := by
  intro c
  by_cases hc : c = cursor
  · subst hc
    rw [pulled_setPulled]
    exact h
  · exact Nat.le_of_eq (pulled_setPulled_of_ne hc s n).symm

end Run

/-! ### Calls -/

theorem Reply.Fits.after {P : α → Prop} {Q : Fault → Prop} {s t : Run σ} {x : Reply (Run σ) α}
    (hx : Reply.Fits P Q t x) (h : s.Onward t) : Reply.Fits P Q s x := by
  cases x with
  | ok a u => exact ⟨hx.1, h.trans hx.2⟩
  | error e u => exact ⟨hx.1, h.trans hx.2⟩

theorem Reply.Fits.mono {P P' : α → Prop} {Q Q' : Fault → Prop} {s : Run σ} {x : Reply (Run σ) α}
    (hx : Reply.Fits P Q s x) (hP : ∀ a, P a → P' a) (hQ : ∀ e, Q e → Q' e) : Reply.Fits P' Q' s x := by
  cases x with
  | ok a u => exact ⟨hP a hx.1, hx.2⟩
  | error e u => exact ⟨hQ e hx.1, hx.2⟩

/-- A call that never raises returns. -/
theorem Reply.Fits.exists_ok {P : α → Prop} {s : Run σ} {x : Reply (Run σ) α}
    (hx : Reply.Fits P Never s x) : ∃ a t, x = .ok a t ∧ P a ∧ s.Onward t := by
  cases x with
  | ok a t => exact ⟨a, t, rfl, hx⟩
  | error e t => exact hx.1.elim

namespace Ends

variable {P : α → Prop} {P' : β → Prop} {Q : Fault → Prop}

theorem pure {a : α} (ha : P a) : Ends P Q (Pure.pure a : Call (Run σ) α) :=
  fun s => ⟨ha, .refl s⟩

theorem throw {e : Fault} (he : Q e) : Ends P Q (MonadExcept.throw e : Call (Run σ) α) :=
  fun s => ⟨he, .refl s⟩

theorem mono {P' : α → Prop} {Q' : Fault → Prop} {c : Call (Run σ) α} (hc : Ends P Q c)
    (hP : ∀ a, P a → P' a) (hQ : ∀ e, Q e → Q' e) : Ends P' Q' c :=
  fun s => (hc s).mono hP hQ

/-- A call that never raises raises nothing but what `Q` says. -/
theorem of_never {c : Call (Run σ) α} (hc : Ends P Never c) : Ends P Q c :=
  hc.mono (fun _ h => h) fun _ h => h.elim

theorem bind {c : Call (Run σ) α} {f : α → Call (Run σ) β} (hc : Ends P Q c)
    (hf : ∀ a, P a → Ends P' Q (f a)) : Ends P' Q (c >>= f) := by
  intro s
  have hs := hc s
  cases h : c s with
  | ok a t =>
    rw [h] at hs
    rw [bind_of_ok h]
    exact (hf a hs.1 t).after hs.2
  | error e t =>
    rw [h] at hs
    rw [bind_of_error h]
    exact hs

theorem changing {f : Run σ → Run σ} (hf : ∀ s : Run σ, s.Onward (f s)) :
    Ends (fun _ => True) Q (modify f : Call (Run σ) Unit) :=
  fun s => ⟨trivial, hf s⟩

theorem onWorld {f : σ → Reply σ α} (hf : ∀ w, Reply.Gives P Q (f w)) :
    Ends P Q (Run.onWorld f) := by
  intro s
  have hs := hf s.world
  unfold Run.onWorld
  cases h : f s.world with
  | ok a w => rw [h] at hs; exact ⟨hs, .of_cursors rfl⟩
  | error e w => rw [h] at hs; exact ⟨hs, .of_cursors rfl⟩

theorem note (name : String) (level : Level) (fields : Fields) :
    Ends (fun _ => True) Q (Run.note name level fields : Call (Run σ) Unit) :=
  fun _ => ⟨trivial, .of_cursors rfl⟩

theorem ofExcept {x : Except Fault α} (ha : ∀ a, x = .ok a → P a) (he : ∀ e, x = .error e → Q e) :
    Ends P Q (Call.ofExcept x : Call (Run σ) α) := by
  cases x with
  | ok a => exact .pure (ha a rfl)
  | error e => exact .throw (he e rfl)

/-- The message of an ordinary error can be written. -/
theorem written {e : Fault} (h : e.hasMessage = true) :
    Ends (fun _ => True) Q (Call.ofExcept e.written : Call (Run σ) String) := by
  rw [Fault.written_of_hasMessage h]
  exact .pure trivial

/-- An ordinary error can be made one of the store's own, and that can be written. -/
theorem asStore {e : Fault} (h : e.hasMessage = true) (entries : List (String × Value)) :
    Ends (fun f => f.hasMessage = true) Q (Call.ofExcept (e.asStore entries) : Call (Run σ) Fault) := by
  refine .ofExcept (fun f hf => Fault.hasMessage_asStore h hf) fun e' he' => ?_
  unfold Fault.asStore at he'
  rw [Fault.wrap_of_hasMessage h] at he'
  split at he' <;> cases he'

theorem recover {c : Call (Run σ) α} {handle : Fault → Call (Run σ) α} (hc : Ends P Ordinary c)
    (hh : ∀ e, Ordinary e → Ends P Q (handle e)) : Ends P Q (c.recover handle) := by
  intro s
  have hs := hc s
  unfold Call.recover
  cases h : c s with
  | ok a t => rw [h] at hs; exact hs
  | error e t =>
    rw [h] at hs
    obtain ⟨he, ht⟩ := hs
    simp only [he.1, if_true]
    exact (hh e he t).after ht

theorem ensure {c : Call (Run σ) α} {f : Run σ → Run σ} (hc : Ends P Q c)
    (hf : ∀ s : Run σ, s.Onward (f s)) : Ends P Q (c.ensure f) := by
  intro s
  have hs := hc s
  unfold Call.ensure
  cases h : c s with
  | ok a t => rw [h] at hs; exact ⟨hs.1, hs.2.trans (hf t)⟩
  | error e t => rw [h] at hs; exact ⟨hs.1, hs.2.trans (hf t)⟩

end Ends

theorem Run.onward_marking (e : Fault) (s : Run σ) : s.Onward (Run.marking e s).2 := by
  unfold Run.marking
  split
  · exact .of_cursors rfl
  · exact .refl s

theorem Run.onward_markingResult (r : Result) (s : Run σ) : s.Onward (Run.markingResult r s).2 := by
  unfold Run.markingResult
  cases r with
  | ok v => exact .refl s
  | error e => exact Run.onward_marking e s

namespace Backend

variable {b : Backend σ} {P : LooseResult → Prop} {Q : Fault → Prop}

/-- Dispatching a command never raises. -/
theorem Sound.dispatch (hb : b.Sound) (c : Command) : Answers (b.dispatch c) := by
  unfold Backend.dispatch
  refine .bind (.note _ _ _) fun _ _ => .recover (hb.perform c) fun e he => ?_
  refine .bind (.written he.2) fun _ _ => .bind (.note _ _ _) fun _ _ => ?_
  exact .bind (.asStore he.2 _) fun _ _ => .pure rfl

theorem Sound.whenConnected (hb : b.Sound) {work : Call (Run σ) LooseResult} (hw : Ends P Q work)
    (hoff : P (.inl (.error b.disconnected))) : Ends P Q (b.whenConnected work) := by
  unfold Backend.whenConnected
  refine .bind hb.connected.of_never fun live _ => ?_
  split
  · exact hw
  · exact .bind (.note _ _ _) fun _ _ => .pure hoff

end Backend

namespace Store

/-- A command on a store in memory comes to a result whose error can be said, or raises an ordinary error. -/
theorem ends_perform (slot : Slot σ Store) (c : Command) : Ends Said Ordinary (perform slot c) := by
  intro s
  unfold perform
  cases (slot.get s.world).apply c with
  | ok as => exact ⟨trivial, .of_cursors rfl⟩
  | error r =>
    simp only
    split
    · next hraised =>
      cases r with
      | numeral p => exact ⟨ordinary_ofNumeral p, .refl s⟩
      | _ => cases hraised
    · exact ⟨r.hasMessage_fault c, .refl s⟩

/-- A store in memory raises nothing but ordinary errors, and rewinds nothing. -/
theorem sound_backend (slot : Slot σ Store) : (backend slot).Sound where
  connected := .pure trivial
  perform c := (ends_perform slot c).mono (fun _ h => h.isLeft) fun _ h => h

/-- What a command on a store in memory fails with can be said. -/
theorem ends_dispatch (slot : Slot σ Store) (c : Command) :
    Ends Said Never ((backend slot).dispatch c) := by
  refine .bind (.note _ _ _) fun _ _ => .recover (ends_perform slot c) fun e he => ?_
  refine .bind (.written he.2) fun _ _ => .bind (.note _ _ _) fun _ _ => ?_
  exact .bind (.asStore he.2 _) fun _ hf => .pure hf

end Store

/-! ### Batches -/

namespace Batch

variable {b : Backend σ} {Q : Fault → Prop}

/-- The outcome of the item at `index`: that it succeeded, or that it failed with a cause whose message
can be written. -/
def IsStep (index : Int) (o : Outcome Fault) : Prop :=
  o = .success index ∨ ∃ cause, o = .failure index cause ∧ cause.hasMessage = true

/-- Where a number is too long to be written, an error says so. -/
def Refuses (Q : Fault → Prop) : Prop := ∀ p, Q (.ofNumeral p)

theorem ends_failure (index : Int) (cause : Fault) (hQ : Refuses Q) :
    Ends (IsStep index) Q (failure index cause : Call (Run σ) (Outcome Fault)) := by
  intro s
  unfold failure
  cases h : cause.written with
  | ok text =>
    refine ⟨.inr ⟨(Run.marking cause s).1, rfl, ?_⟩, Run.onward_marking cause s⟩
    rw [Run.hasMessage_marking]
    exact (Fault.written_eq_ok h).1
  | error e =>
    obtain ⟨-, rfl⟩ := Fault.written_eq_error h
    exact ⟨hQ _, .refl s⟩

theorem answers_execute (hb : b.Sound) {j : Job σ} (hj : Answers j.run) : Answers (execute b j) :=
  hb.whenConnected hj rfl

theorem ends_malformedItem (index : Int) {shown : Except Fault String}
    (hshown : ∀ e, shown = .error e → Q e) (hQ : Refuses Q) :
    Ends (IsStep index) Q (malformedItem index shown : Call (Run σ) (Outcome Fault)) :=
  .bind (.ofExcept (fun _ _ => trivial) hshown) fun _ (_ : True) => ends_failure index _ hQ

theorem ends_createRecord (hb : b.Sound) (index : Int) {creation : Key → Job σ}
    (hc : ∀ k, Answers (creation k).run) (shown : Except Fault String) {key : LooseResult}
    (hkey : key.isLeft = true) (hQ : Refuses Q) :
    Ends (IsStep index) Q (createRecord b index creation shown key) := by
  cases key with
  | inr v => cases hkey
  | inl r =>
    cases r with
    | error e => exact ends_failure index e hQ
    | ok raw =>
      unfold createRecord
      simp only
      split
      · next e he =>
        refine .bind (.ofExcept (fun _ _ => trivial) fun e' he' => ?_)
          fun _ (_ : True) => ends_failure index _ hQ
        rw [invalidKey_of_ofValue he] at he'
        cases he'
      · next k _ =>
        refine .bind (answers_execute hb (hc k)).of_never fun r hr => ?_
        split
        · exact .pure (.inl rfl)
        · exact ends_failure index _ hQ
        · cases hr

/-- The text of a value can be written, or a number in it is too long for that. -/
theorem refuses_printed {v : Value} {e : Fault} (hQ : Refuses Q)
    (h : v.printed.mapError .ofNumeral = .error e) : Q e := by
  cases hv : v.printed with
  | ok text => rw [hv] at h; cases h
  | error p => rw [hv] at h; cases h; exact hQ p

theorem shownSuccess_eq_error {shown : Except Fault String} {e : Fault}
    (h : shownSuccess shown = .error e) : shown = .error e := by
  cases shown with
  | ok text => cases h
  | error e' => cases h; rfl

/-- An item comes to one success or one failure.  Only a pair that does not begin with a program raises,
and an item whose text or whose error cannot be written. -/
theorem ends_createOne (hb : b.Sound) (index : Int) {i : Item (KeyJob σ)} (hi : ItemAnswers Q i)
    (hloose : ∀ v w, i = .loose (.list [v, w]) → Q (Fault.noPart v "root")) (hQ : Refuses Q) :
    Ends (IsStep index) Q (createOne b index i) := by
  unfold createOne
  split
  · exact ends_failure index _ hQ
  · refine .bind (answers_execute hb (hi.jobs _ .record)).of_never fun r hr => ?_
    refine ends_createRecord hb _ (fun k => ?_) _ hr hQ
    rw [Job.run_mk_nil]
    exact hb.dispatch _
  · refine .bind (answers_execute hb (hi.jobs _ .misfit)).of_never fun r hr => ?_
    exact ends_createRecord hb _ (fun k => hi.jobs _ (.creation k)) _ hr hQ
  · next v w =>
    -- where the backend is not connected the pair is a failure, and no key is ever named
    have hkey : Ends (fun r => r = .inl (.error b.disconnected)) Q (execute b (rootless v)) := by
      refine hb.whenConnected ?_ rfl
      rw [rootless, Job.run_mk_nil]
      exact .throw (hloose v w rfl)
    refine .bind hkey fun r hr => ?_
    rw [hr]
    simp only [createRecord]
    exact ends_failure index _ hQ
  · exact ends_malformedItem index (fun e he => refuses_printed hQ (shownSuccess_eq_error he)) hQ
  · exact ends_malformedItem index (fun e he => refuses_printed hQ he) hQ
  · exact ends_malformedItem index (fun e he => hi.strange _ e rfl he) hQ

/-- A pull goes on behind the item, or to the end where it raises; either way nothing is rewound. -/
theorem fits_pull {source : Source (KeyJob σ) σ} {own : Nat} {s : Run σ}
    {item : σ → Reply σ (Item (KeyJob σ))} (hplace : source.items[position source own s]? = some item)
    (hitem : ∀ w, Reply.Gives (ItemAnswers Q) Q (item w)) :
    Reply.Fits (ItemAnswers Q) Q s (pull source (position source own s) item s) := by
  have hlt : position source own s < source.items.length := (List.getElem?_eq_some_iff.1 hplace).1
  have hmove : s.Onward (moveTo source (position source own s + 1) s) ∧
      ∀ t : Run σ, t.cursors = (moveTo source (position source own s + 1) s).cursors →
        s.Onward (moveTo source source.items.length t) := by
    unfold moveTo position at *
    cases hc : source.cursor with
    | none => exact ⟨.refl s, fun t ht => .of_cursors ht⟩
    | some c =>
      rw [hc] at hlt
      simp only at hlt ⊢
      have hahead : s.Onward (s.setPulled c (s.pulled c + 1)) := .setPulled (Nat.le_succ _)
      refine ⟨hahead, fun t ht => ?_⟩
      have hpulled : t.pulled c = s.pulled c + 1 := by
        unfold Run.pulled
        rw [ht]
        exact Run.pulled_setPulled s c _
      exact (hahead.trans (.of_cursors ht)).trans (.setPulled (by omega))
  have hmade := hitem (moveTo source (position source own s + 1) s).world
  unfold pull Run.onWorld
  cases h : item (moveTo source (position source own s + 1) s).world with
  | ok i w =>
    rw [h] at hmade
    exact ⟨hmade, hmove.1.trans (.of_cursors rfl)⟩
  | error e w =>
    rw [h] at hmade
    exact ⟨hmade, hmove.2 _ rfl⟩

/-- What a batch does with the next item of its source, as far as it goes. -/
theorem drain_succ (b : Backend σ) (policy : Policy σ) (source : Source (KeyJob σ) σ) (turns own : Nat)
    (outcome : Outcome Fault) (s : Run σ) :
    drain b policy source (turns + 1) own outcome s =
      match source.items[position source own s]? with
      | none => .ok (outcome, none) s
      | some item =>
        (do
          let step ← createOne b own (← pull source (position source own s) item)
          let outcome := outcome.combine step
          match step.failures.head? with
          | none => drain b policy source turns (own + 1) outcome
          | some ⟨_, cause⟩ => do
            let text ← Call.ofExcept cause.written
            Run.note "batch.item_failed" .info [("index", .int own),
              ("error_type", .text cause.kindName), ("error", .text text)]
            if ← Run.onWorld (policy cause) then drain b policy source turns (own + 1) outcome
            else return (outcome, some (own : Int)) : Call (Run σ) (Outcome Fault × Option Int)) s := by
  rw [drain, get_bind]
  cases source.items[position source own s]? <;> rfl

/-- What the items of a source and its policy may do in a batch. -/
structure Fed (Q : Fault → Prop) (policy : Policy σ) (source : Source (KeyJob σ) σ) : Prop where
  items : ∀ item ∈ source.items, ∀ w, Reply.Gives (ItemAnswers Q) Q (item w)
  loose : ∀ v, Q (Fault.noPart v "root")
  refuses : Refuses Q
  policy : ∀ e w, Reply.Gives (fun _ => True) Q (policy e w)

theorem ends_drain (hb : b.Sound) {policy : Policy σ} {source : Source (KeyJob σ) σ}
    (hf : Fed Q policy source) (turns own : Nat) (outcome : Outcome Fault) :
    Ends (fun _ => True) Q (drain b policy source turns own outcome) := by
  induction turns generalizing own outcome with
  | zero => exact .pure trivial
  | succ turns ih =>
    intro s
    rw [drain_succ]
    cases hplace : source.items[position source own s]? with
    | none => exact ⟨trivial, .refl s⟩
    | some item =>
      have hpull := fits_pull hplace (hf.items item (List.mem_of_getElem? hplace))
      show Reply.Fits _ Q s (EStateM.bind (pull source (position source own s) item) _ s)
      unfold EStateM.bind
      cases h : pull source (position source own s) item s with
      | error e t => rw [h] at hpull; exact ⟨hpull.1, hpull.2⟩
      | ok i t =>
        rw [h] at hpull
        obtain ⟨hi, ht⟩ := hpull
        refine Reply.Fits.after ?_ ht
        refine Ends.bind (ends_createOne hb own hi (fun v _ _ => hf.loose v) hf.refuses)
          (fun step hstep => ?_) t
        split
        · exact ih _ _
        · next cause hcause =>
          have hwritten : cause.hasMessage = true := by
            rcases hstep with rfl | ⟨c, rfl, hc⟩ <;> cases hcause
            exact hc
          refine .bind (.written hwritten) fun _ _ => ?_
          refine .bind (.note _ _ _) fun _ _ => .bind (.onWorld (hf.policy cause)) fun goOn _ => ?_
          split
          · exact ih _ _
          · exact .pure trivial

theorem ends_run (hb : b.Sound) {policy : Policy σ} {source : Source (KeyJob σ) σ}
    (hf : Fed Q policy source) : Ends (fun _ => True) Q (run b policy source) := by
  unfold run
  refine .bind (.changing fun s => .of_cursors rfl) fun _ _ => .ensure ?_ fun s => .of_cursors rfl
  refine .bind (.note _ _ _) fun _ _ => .bind (ends_drain hb hf _ _ _) fun x _ => ?_
  exact .bind (.note _ _ _) fun _ _ => .pure trivial

/-- A batch at the root of a program makes a result of what it raises. -/
theorem answers_asRoot (hb : b.Sound) {policy : Policy σ} {source : Source (KeyJob σ) σ}
    (hf : Fed Ordinary policy source) : Answers (asRoot b policy source) := by
  unfold asRoot
  refine .bind (.note _ _ _) fun _ _ => .recover ?_ fun e he => ?_
  · exact .bind (ends_run hb hf) fun _ _ => .pure rfl
  · exact .bind (.asStore he.2 _) fun _ _ => .pure rfl

end Batch

/-! ### Programs -/

section

variable {b : Backend σ}

/-- A stage makes a result of an ordinary error that its function raises. -/
theorem answers_raisedBy (kind : StageKind) {e : Fault} (he : Ordinary e) :
    Answers (raisedBy kind e : Call (Run σ) LooseResult) := by
  intro s
  obtain ⟨f, -, hraised⟩ := stageRaised_of_hasMessage kind he.1 he.2
  unfold raisedBy
  rw [hraised]
  exact ⟨rfl, .refl s⟩

theorem ordinary_notProgram (v : Value) : Ordinary (notProgram v) := ⟨rfl, hasMessage_notProgram v⟩

theorem answers_caught (kind : StageKind) {c : σ → Reply σ Result} (hc : ∀ w, Reply.Tame (c w)) :
    Answers (caught kind c) := by
  intro s
  have hs := hc s.world
  unfold caught Run.onWorld
  cases h : c s.world with
  | ok r w => exact ⟨rfl, .of_cursors rfl⟩
  | error e w =>
    rw [h] at hs
    exact (answers_raisedBy kind hs _).after (.of_cursors rfl)

theorem Result.tame_map {f : Value → σ → Reply σ Value} (hf : ∀ v w, Reply.Tame (f v w)) (r : Result)
    (w : σ) : Reply.Tame (Result.map r f w) := by
  cases r with
  | error e => trivial
  | ok v =>
    have hv := hf v w
    simp only [Result.map]
    cases h : f v w with
    | ok a w => trivial
    | error e w => rw [h] at hv; exact hv

theorem Result.tame_mapErr {f : Fault → σ → Reply σ Fault} (hf : ∀ e w, Reply.Tame (f e w)) (r : Result)
    (w : σ) : Reply.Tame (Result.mapErr r f w) := by
  cases r with
  | ok v => trivial
  | error e =>
    have he := hf e w
    simp only [Result.mapErr]
    cases h : f e w with
    | ok a w => trivial
    | error e w => rw [h] at he; exact he

theorem ends_asResult {r : LooseResult} (hr : r.isLeft = true) :
    Ends (fun _ => True) Never (asResult r : Call (Run σ) Result) := by
  cases r with
  | inr v => cases hr
  | inl r => exact fun s => ⟨trivial, Run.onward_markingResult r s⟩

mutual

theorem Program.answers (hb : b.Sound) : ∀ p : Program σ, Program.Tame p →
    Answers (Program.evaluate b p)
  | .mk root stages, ⟨hroot, hstages⟩ => by
    have ih := Root.answers hb root hroot
    have ihs := stagesAnswer hb stages hstages
    rw [Program.evaluate_mk]
    exact .bind ih ihs

theorem Root.answers (hb : b.Sound) : ∀ root : Root σ, Root.Tame root → Answers (Root.call b root)
  | .pure v, _ => by
    rw [Root.call]
    exact .pure rfl
  | .fail e, _ => by
    rw [Root.call]
    exact .pure rfl
  | .command c, _ => by
    rw [Root.call]
    exact hb.dispatch c
  | .batch ⟨cursor, items⟩ policy, ⟨hitems, hpolicy⟩ => by
    have ih := itemsAnswer hb items hitems
    rw [Root.call]
    exact Batch.answers_asRoot hb ⟨ih, fun v => ordinary_noPart v _, ordinary_ofNumeral, hpolicy⟩
  | .unsupported name, _ => by
    rw [Root.call]
    exact .pure rfl

theorem itemsAnswer (hb : b.Sound) : ∀ items, itemsTame items →
    ∀ item ∈ itemsOn b items, ∀ w, Reply.Gives (ItemAnswers Ordinary) Ordinary (item w)
  | [], _ => fun item h => by rw [itemsOn] at h; cases h
  | item :: items, ⟨hitem, hitems⟩ => by
    have ih := itemsAnswer hb items hitems
    have ihr := fun w => itemReplyAnswers hb (item w) (hitem w)
    intro i hi
    rw [itemsOn] at hi
    rcases List.mem_cons.1 hi with rfl | hi
    · exact fun w => ihr w
    · exact ih i hi

theorem itemReplyAnswers (hb : b.Sound) : ∀ x, itemReplyTame x →
    Reply.Gives (ItemAnswers Ordinary) Ordinary (itemReplyOn b x)
  | .ok i w, hi => by
    have ih := itemAnswers hb i hi
    rw [itemReplyOn]
    exact ih
  | .error e w, he => by
    rw [itemReplyOn]
    exact he

theorem itemAnswers (hb : b.Sound) : ∀ i, itemTame i → ItemAnswers Ordinary (itemOn b i)
  | .failed cause, _ => by
    rw [itemOn]
    exact ⟨nofun, nofun⟩
  | .record p content, hp => by
    have ih := Program.answers hb p hp
    rw [itemOn]
    refine ⟨fun j h => ?_, nofun⟩
    cases h
    rwa [Job.run_on]
  | .misfit p shown creation, ⟨hp, hcreation⟩ => by
    have ih := Program.answers hb p hp
    have ihc := fun k => Program.answers hb (creation k) (hcreation k)
    rw [itemOn]
    refine ⟨fun j h => ?_, nofun⟩
    cases h with
    | misfit => rwa [Job.run_on]
    | creation k =>
      rw [Job.run_on]
      exact ihc k
  | .loose v, _ => by
    rw [itemOn]
    exact ⟨nofun, nofun⟩
  | .other v, _ => by
    rw [itemOn]
    exact ⟨nofun, nofun⟩
  | .strange shown, hshown => by
    rw [itemOn]
    exact ⟨nofun, fun _ e h he => hshown e (by cases h; exact he)⟩

theorem stagesAnswer (hb : b.Sound) : ∀ ss : List (Stage (Root σ) σ), stagesTame ss →
    ∀ r : LooseResult, r.isLeft = true → Answers (evaluateStages (Root.call b) ss r)
  | [], _, r, hr => by
    rw [evaluateStages]
    exact .pure hr
  | st :: ss, ⟨hst, hss⟩, r, hr => by
    have ih := stagesAnswer hb ss hss
    have ihst := stageAnswers hb st hst
    rw [evaluateStages]
    exact .bind (.bind (ends_asResult hr) fun r _ => ihst r) ih

theorem stageAnswers (hb : b.Sound) : ∀ st : Stage (Root σ) σ, stageTame st →
    ∀ r, Answers (evaluateStage (Root.call b) st r)
  | .map f, hf, r => by
    rw [evaluateStage]
    exact answers_caught .map (Result.tame_map hf r)
  | .mapErr f, hf, r => by
    rw [evaluateStage]
    exact answers_caught .mapErr (Result.tame_mapErr hf r)
  | .andThen f, hf, .ok v => by
    intro s
    have ih := fun w => replyAnswers hb .andThen (f v w)
    rw [evaluateStage]
    exact ih s.world s (hf v s.world)
  | .orElse f, hf, .error e => by
    intro s
    have ih := fun w => replyAnswers hb .orElse (f e w)
    rw [evaluateStage]
    exact ih s.world s (hf e s.world)
  | .andThen f, _, .error e => fun s => ⟨rfl, .refl s⟩
  | .orElse f, _, .ok v => fun s => ⟨rfl, .refl s⟩

theorem replyAnswers (hb : b.Sound) (kind : StageKind) :
    ∀ (x : EStateM.Result Fault σ (Next (Program σ))) (s : Run σ), replyTame x →
      Reply.Fits (fun r => r.isLeft = true) Never s (evaluateReply (Root.call b) kind x s)
  | .ok n w, s, hn => by
    have ih := nextAnswers hb kind n hn
    rw [evaluateReply]
    exact (ih { s with world := w }).after (.of_cursors rfl)
  | .error e w, s, he => by
    rw [evaluateReply]
    exact (answers_raisedBy kind he _).after (.of_cursors rfl)

theorem nextAnswers (hb : b.Sound) (kind : StageKind) : ∀ n : Next (Program σ), nextTame n →
    Answers (evaluateNext (Root.call b) kind n)
  | .program p, hp => by
    have ih := Program.answers hb p hp
    rw [evaluateNext]
    exact ih
  | .value v, _ => by
    rw [evaluateNext]
    exact answers_raisedBy kind (ordinary_notProgram v)

end

/-- A program whose functions raise ordinary errors only always comes to a result. -/
theorem answers_execute (hb : b.Sound) {p : Program σ} (hp : Program.Tame p) : Answers (p.execute b) := by
  refine Batch.answers_execute hb ?_
  rw [Job.run_on]
  exact Program.answers hb p hp

theorem Program.exists_result (hb : b.Sound) {p : Program σ} (hp : Program.Tame p) (s : Run σ) :
    ∃ r t, p.execute b s = .ok (.inl r) t := by
  obtain ⟨r, t, hrun, hr, -⟩ := (answers_execute hb hp s).exists_ok
  obtain ⟨r, rfl⟩ := Sum.isLeft_iff.1 hr
  exact ⟨r, t, hrun⟩

end

end CasStore
