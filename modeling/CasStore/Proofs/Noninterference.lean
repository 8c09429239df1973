import CasStore.Proofs.BatchTurns
import CasStore.Proofs.Splitting
import Mathlib.Data.List.Forall2

/-!
# Contents are not told

Documents are stored and handed out, but nothing looks into them: no event of the log, no version, no
error and no outcome of a batch depends on what a document contains.  Counters are left out, since
counting reads them.

A run of requests is set beside another one that differs in contents only, those of the commands and
items as well as those of the documents in store.  Batches may be named differently too, as names of
batches are made up anew in every run.

    what a command comes to does not depend on contents              (apply_blank)
    nor what an item of a batch does                                 (alike_createOne)
    nor where a batch stops                                          (alike_drain)
    nor what a list of programs does                                 (contents_unseen)
-/

namespace CasStore

variable {σ α β γ δ κ ν μ : Type}

/-! ## Algorithm -/

/-! ### Without contents -/

/-- Every value of a table changed in its place. -/
def Table.map (f : ν → μ) (t : Table κ ν) : Table κ μ where
  entries := t.entries.map fun e => (e.1, f e.2)
  nodup := by
    rw [List.map_map]
    exact t.nodup

/-- A document with its version, but without its content. -/
def Document.blank (d : Document) : Document := ⟨"", d.version⟩

/-- A command without the content that it would store. -/
def Command.blank : Command → Command
  | .create k _ => .create k ""
  | .update k _ v => .update k "" v
  | c => c

/-- The command reads or changes a counter. -/
def Command.Counts : Command → Prop
  | .getCounter _ | .increment _ _ => True
  | _ => False

instance : DecidablePred Command.Counts
  | .getCounter _ | .increment _ _ => .isTrue trivial
  | .get _ | .create _ _ | .update _ _ _ | .remove _ => .isFalse id

/-- An answer without the content of the document in it. -/
def Answer.blank : Answer → Answer
  | .document d => .document d.blank
  | a => a

/-- A store without its contents. -/
def Store.blank (s : Store) : Store := ⟨s.docs.map Document.blank, s.lastVersion⟩

/-- A start map without its contents. -/
def StartMap.blank (m : StartMap) : StartMap := ⟨m.docs.map Document.blank, m.lastVersion⟩

/-! ### Programs that differ in contents -/

/-- The policy that looks at the class and the text of a cause, and at nothing else. -/
def Policy.ofText (verdict : String → String → Except Fault Bool) : Policy σ := fun cause w =>
  match verdict cause.kindName cause.message with
  | .ok goOn => .ok goOn w
  | .error e => .error e w

/-- The source of these items, which are there before the batch begins. -/
def Source.given (cursor : Option Nat) (items : List (Item (Program σ))) : Source (Program σ) σ :=
  ⟨cursor, items.map fun i w => .ok i w⟩

/-- Two items of batches that are the same but for the content: an error, or content for the key that a
known result names. -/
inductive Item.Twin : Item (Program σ) → Item (Program σ) → Prop
  | failed (cause : Fault) : Twin (.failed cause) (.failed cause)
  | record (key : Result) (x y : String) :
      Twin (.record (Program.ofResult key) x) (.record (Program.ofResult key) y)

/-- Two programs that are the same but for contents: a command that counts nothing, or a batch. -/
inductive Program.Twin : Program σ → Program σ → Prop
  | command {c d : Command} (hc : ¬ c.Counts) (h : c.blank = d.blank) :
      Twin (Program.command c) (Program.command d)
  | batch {cursor : Option Nat} {items items' : List (Item (Program σ))}
      {verdict : String → String → Except Fault Bool} (h : List.Forall₂ Item.Twin items items') :
      Twin (Program.batch (.given cursor items) (.ofText verdict))
        (Program.batch (.given cursor items') (.ofText verdict))

/-! ### Runs that differ in contents -/

/-- Fields, the name of a batch among them left open. -/
def Fields.unnamed (fields : Fields) : Fields :=
  fields.map fun f => (f.1, if f.1 = "batch_id" then .null else f.2)

/-- An event, the name of its batch left open. -/
def Event.unnamed (e : Event) : Event := { e with bound := Fields.unnamed e.bound }

/-- Two runs that are the same but for contents and the names of batches. -/
structure Run.Alike (slot : Slot σ Store) (s t : Run σ) : Prop where
  store : (slot.get s.world).blank = (slot.get t.world).blank
  events : s.journal.events.map Event.unnamed = t.journal.events.map Event.unnamed
  bound : Fields.unnamed s.journal.bound = Fields.unnamed t.journal.bound
  cursors : s.cursors = t.cursors
  marks : s.marks = t.marks

/-- Two results that are equal, or documents of one version. -/
inductive SameButContent : LooseResult → LooseResult → Prop
  | same (r : Result) : SameButContent (.inl r) (.inl r)
  | document (x y : Value) (v : Version) :
      SameButContent (.inl (.ok (.document x v))) (.inl (.ok (.document y v)))

/-- Two calls have come to values that are related, or to one error, and the runs are alike. -/
inductive Reply.Alike (slot : Slot σ Store) (R : α → β → Prop) : Reply (Run σ) α → Reply (Run σ) β → Prop
  | ok {a b s t} (h : R a b) (hst : Run.Alike slot s t) : Alike slot R (.ok a s) (.ok b t)
  | error {e s t} (hst : Run.Alike slot s t) : Alike slot R (.error e s) (.error e t)

/-- Two calls come to the same from runs that are alike. -/
def Call.Alike (slot : Slot σ Store) (R : α → β → Prop) (c : Call (Run σ) α) (d : Call (Run σ) β) : Prop :=
  ∀ s t, Run.Alike slot s t → Reply.Alike slot R (c s) (d t)

/-! ## Lemmas -/

/-! ### Tables -/

section

variable [DecidableEq κ]

theorem Table.find?_map (f : ν → μ) (t : Table κ ν) (k : κ) : (t.map f).find? k = (t.find? k).map f := by
  unfold find? map
  simp only
  induction t.entries with
  | nil => rfl
  | cons e es ih =>
    rw [List.map_cons, List.lookup_cons, List.lookup_cons]
    cases k == e.1 with
    | true => rfl
    | false => exact ih

theorem Table.contains_map (f : ν → μ) (t : Table κ ν) (k : κ) : (t.map f).contains k = t.contains k := by
  rw [contains, contains, find?_map, Option.isSome_map]

theorem Table.putEntry_map (f : ν → μ) (k : κ) (v : ν) (es : List (κ × ν)) :
    putEntry k (f v) (es.map fun e => (e.1, f e.2)) = (putEntry k v es).map fun e => (e.1, f e.2) := by
  induction es with
  | nil => rfl
  | cons e es ih =>
    simp only [List.map_cons, putEntry]
    split
    · rfl
    · rw [ih, List.map_cons]

theorem Table.insert_map (f : ν → μ) (t : Table κ ν) (k : κ) (v : ν) :
    (t.map f).insert k (f v) = (t.insert k v).map f :=
  Table.ext (putEntry_map f k v t.entries)

theorem Table.erase_map (f : ν → μ) (t : Table κ ν) (k : κ) : (t.map f).erase k = (t.erase k).map f := by
  refine Table.ext ?_
  show List.filter _ (List.map _ _) = List.map _ (List.filter _ _)
  rw [List.filter_map]
  rfl

end

/-! ### Commands -/

theorem Table.highestVersion_blank (m : DocMap) :
    Table.highestVersion (m.map Document.blank) = m.highestVersion := by
  have hversions : ((m.map Document.blank).entries.map (·.2.version.number)) =
      m.entries.map (·.2.version.number) := by
    show (m.entries.map _).map _ = _
    rw [List.map_map]
    rfl
  unfold highestVersion
  rw [hversions]

theorem Store.blank_ofStart (m : StartMap) : (ofStart m).blank = ofStart m.blank := by
  unfold ofStart StartMap.highWater
  rw [StartMap.blank, Table.highestVersion_blank]
  rfl

theorem Store.blank_write (s : Store) (k : Key) (content : String) :
    (s.write k content).2.blank = (s.blank.write k "").2 :=
  congrArg (Store.mk · _) (Table.insert_map Document.blank s.docs k ⟨content, s.nextVersion⟩).symm

@[simp] theorem Store.docs_blank (s : Store) : s.blank.docs = s.docs.map Document.blank := rfl

/-- Without contents, a command that counts nothing comes to the same, without contents. -/
theorem Store.apply_blank (s : Store) {c : Command} (hc : ¬ c.Counts) :
    s.blank.apply c.blank = (s.apply c).map fun (a, t) => (a.blank, t.blank) := by
  have hwrite (k : Key) (content : String) (a : Answer) :
      (Except.ok (a, (s.blank.write k "").2) : Except Refusal _) =
        .ok (a, (s.write k content).2.blank) := by
    rw [blank_write]
  cases c with
  | get k =>
    simp only [Command.blank, apply, docs_blank, Table.find?_map]
    cases s.docs.find? k <;> rfl
  | create k content =>
    simp only [Command.blank, apply, docs_blank, Table.contains_map]
    cases s.docs.contains k with
    | true => rfl
    | false => exact hwrite ..
  | update k content v =>
    simp only [Command.blank, apply, docs_blank, Table.find?_map]
    cases s.docs.find? k with
    | none => rfl
    | some d =>
      simp only [Option.map_some, Document.blank]
      cases v.isSet && v != d.version with
      | true => rfl
      | false => exact hwrite ..
  | remove k =>
    simp only [Command.blank, apply, docs_blank, Table.contains_map, Table.erase_map]
    cases s.docs.contains k <;> rfl
  | getCounter k => exact absurd trivial hc
  | increment k delta => exact absurd trivial hc

theorem Command.counts_blank (c : Command) : c.blank.Counts ↔ c.Counts := by
  cases c <;> exact Iff.rfl

theorem Command.summary_congr {c d : Command} (h : c.blank = d.blank) : c.summary = d.summary := by
  have hblank (e : Command) : e.blank.summary = e.summary := by cases e <;> rfl
  rw [← hblank c, h, hblank d]

theorem Command.fault_congr {c d : Command} (h : c.blank = d.blank) (r : Refusal) :
    r.fault c = r.fault d := by
  have hblank (e : Command) : r.fault e.blank = r.fault e := by cases e <;> rfl
  rw [← hblank c, h, hblank d]

/-- On stores that differ in contents, commands that differ in contents are both carried out, with
answers that do, or both refused for one reason. -/
theorem Store.applied_of_blank {s t : Store} {c d : Command} (hc : ¬ c.Counts) (hcd : c.blank = d.blank)
    (hst : s.blank = t.blank) :
    (∃ a b s' t', s.apply c = .ok (a, s') ∧ t.apply d = .ok (b, t') ∧ a.blank = b.blank ∧
      s'.blank = t'.blank) ∨
    ∃ r, s.apply c = .error r ∧ t.apply d = .error r := by
  have hd : ¬ d.Counts := by
    rw [← Command.counts_blank, ← hcd, Command.counts_blank]
    exact hc
  have hboth := (s.apply_blank hc).symm.trans ((congrArg₂ Store.apply hst hcd).trans (t.apply_blank hd))
  cases hs : s.apply c with
  | error r =>
    cases ht : t.apply d with
    | error r' =>
      rw [hs, ht] at hboth
      cases hboth
      exact .inr ⟨r, rfl, rfl⟩
    | ok bt => rw [hs, ht] at hboth; cases hboth
  | ok as =>
    cases ht : t.apply d with
    | error r' => rw [hs, ht] at hboth; cases hboth
    | ok bt =>
      rw [hs, ht] at hboth
      obtain ⟨hanswer, hafter⟩ := Prod.mk.inj (Except.ok.inj hboth)
      exact .inl ⟨as.1, bt.1, as.2, bt.2, rfl, rfl, hanswer, hafter⟩

theorem SameButContent.of_answers {a b : Answer} (h : a.blank = b.blank) :
    SameButContent (.inl (.ok a.toValue)) (.inl (.ok b.toValue)) := by
  cases a with
  | document d =>
    cases b with
    | document e =>
      have hblank : d.blank = e.blank := Answer.document.inj h
      have hversion : d.version = e.version := (Document.mk.inj hblank).2
      simp only [Answer.toValue, Document.toValue, hversion]
      exact .document ..
    | removed => cases h
    | counter i => cases h
  | removed =>
    cases b with
    | document e => cases h
    | removed => exact .same _
    | counter i => cases h
  | counter i =>
    cases b with
    | document e => cases h
    | removed => cases h
    | counter j => cases h; exact .same _

/-! ### Runs -/

theorem Fields.unnamed_setEntry (v : Value) (fields : Fields) :
    Fields.unnamed (Context.setEntry "batch_id" v fields) =
      Context.setEntry "batch_id" .null (Fields.unnamed fields) := by
  induction fields with
  | nil => rfl
  | cons f fields ih =>
    by_cases hf : f.1 = "batch_id"
    · simp only [Context.setEntry, Fields.unnamed, List.map_cons, hf, if_true]
    · simp only [Context.setEntry, Fields.unnamed, List.map_cons, hf, if_false]
      exact congrArg _ ih

theorem Fields.unnamed_filter (p : String → Bool) (fields : Fields) :
    Fields.unnamed (fields.filter fun f => p f.1) = (Fields.unnamed fields).filter fun f => p f.1 := by
  unfold Fields.unnamed
  rw [List.filter_map]
  rfl

namespace Run.Alike

variable {slot : Slot σ Store} {s t : Run σ}

theorem note (h : Run.Alike slot s t) (name : String) (level : Level) (fields : Fields) :
    Run.Alike slot { s with journal := s.journal.note name level fields }
      { t with journal := t.journal.note name level fields } where
  store := h.store
  events := by
    rw [Journal.events_note, Journal.events_note, List.map_append, List.map_append, h.events]
    simp only [List.map_cons, List.map_nil, Event.unnamed, h.bound]
  bound := h.bound
  cursors := h.cursors
  marks := h.marks

theorem enter (h : Run.Alike slot s t) (v w : Value) (m n : Nat) :
    Run.Alike slot { s with journal := s.journal.bind [("batch_id", v)], batches := m }
      { t with journal := t.journal.bind [("batch_id", w)], batches := n } where
  store := h.store
  events := h.events
  bound := by
    show Fields.unnamed (Context.setEntry _ v _) = Fields.unnamed (Context.setEntry _ w _)
    rw [Fields.unnamed_setEntry, Fields.unnamed_setEntry, h.bound]
  cursors := h.cursors
  marks := h.marks

theorem finish (h : Run.Alike slot s t) : Run.Alike slot (Batch.finish s) (Batch.finish t) where
  store := h.store
  events := h.events
  bound := by
    have hs := Fields.unnamed_filter (fun name => !(["batch_id"] : List String).contains name) s.journal.bound
    have ht := Fields.unnamed_filter (fun name => !(["batch_id"] : List String).contains name) t.journal.bound
    exact hs.trans ((congrArg _ h.bound).trans ht.symm)
  cursors := h.cursors
  marks := h.marks

theorem marking (h : Run.Alike slot s t) (e : Fault) :
    (Run.marking e s).1 = (Run.marking e t).1 ∧
      Run.Alike slot (Run.marking e s).2 (Run.marking e t).2 := by
  unfold Run.marking
  split
  · exact ⟨by rw [h.marks], ⟨h.store, h.events, h.bound, h.cursors, by rw [h.marks]⟩⟩
  · exact ⟨rfl, h⟩

theorem setPulled (h : Run.Alike slot s t) (cursor n : Nat) :
    Run.Alike slot (s.setPulled cursor n) (t.setPulled cursor n) where
  store := h.store
  events := h.events
  bound := h.bound
  cursors := congrArg (Run.setRow cursor n) h.cursors
  marks := h.marks

end Run.Alike

/-! ### Calls -/

namespace Call.Alike

variable {slot : Slot σ Store} {R : α → β → Prop} {R' : γ → δ → Prop}

theorem pure {a : α} {b : β} (h : R a b) : Call.Alike slot R (Pure.pure a) (Pure.pure b) :=
  fun _ _ hst => .ok h hst

theorem bind {c : Call (Run σ) α} {d : Call (Run σ) β} {f : α → Call (Run σ) γ} {g : β → Call (Run σ) δ}
    (hcd : Call.Alike slot R c d) (hfg : ∀ a b, R a b → Call.Alike slot R' (f a) (g b)) :
    Call.Alike slot R' (c >>= f) (d >>= g) := by
  intro s t hst
  have hfirst := hcd s t hst
  show Reply.Alike slot R' (EStateM.bind c f s) (EStateM.bind d g t)
  unfold EStateM.bind
  generalize c s = left, d t = right at hfirst ⊢
  cases hfirst with
  | ok h hst' => exact hfg _ _ h _ _ hst'
  | error hst' => exact .error hst'

theorem recover {c : Call (Run σ) α} {d : Call (Run σ) β} {f : Fault → Call (Run σ) α}
    {g : Fault → Call (Run σ) β} (hcd : Call.Alike slot R c d) (hfg : ∀ e, Call.Alike slot R (f e) (g e)) :
    Call.Alike slot R (c.recover f) (d.recover g) := by
  intro s t hst
  have hfirst := hcd s t hst
  unfold Call.recover
  generalize c s = left, d t = right at hfirst ⊢
  cases hfirst with
  | ok h hst' => exact .ok h hst'
  | @error e _ _ hst' =>
    simp only
    split
    · exact hfg e _ _ hst'
    · exact .error hst'

theorem ensure {c : Call (Run σ) α} {d : Call (Run σ) β} {f : Run σ → Run σ}
    (hcd : Call.Alike slot R c d) (hf : ∀ s t, Run.Alike slot s t → Run.Alike slot (f s) (f t)) :
    Call.Alike slot R (c.ensure f) (d.ensure f) := by
  intro s t hst
  have hfirst := hcd s t hst
  unfold Call.ensure
  generalize c s = left, d t = right at hfirst ⊢
  cases hfirst with
  | ok h hst' => exact .ok h (hf _ _ hst')
  | error hst' => exact .error (hf _ _ hst')

/-- What raises for the one raises for the other. -/
theorem ofExcept (x : Except Fault α) : Call.Alike slot Eq (Call.ofExcept x) (Call.ofExcept x) := by
  cases x with
  | ok a => exact .pure rfl
  | error e => exact fun _ _ hst => .error hst

theorem note (name : String) (level : Level) (fields : Fields) :
    Call.Alike slot Eq (Run.note name level fields) (Run.note name level fields) :=
  fun _ _ hst => .ok rfl (hst.note name level fields)

/-- A policy that looks at class and text says the same about one cause. -/
theorem policy (verdict : String → String → Except Fault Bool) (cause : Fault) :
    Call.Alike slot Eq (Run.onWorld (Policy.ofText verdict cause))
      (Run.onWorld (Policy.ofText verdict cause)) := by
  intro s t hst
  unfold Run.onWorld Policy.ofText
  cases verdict cause.kindName cause.message with
  | ok goOn => exact .ok rfl hst
  | error e => exact .error hst

theorem perform (hslot : slot.Lawful) {c d : Command} (hc : ¬ c.Counts) (hcd : c.blank = d.blank) :
    Call.Alike slot SameButContent (Store.perform slot c) (Store.perform slot d) := by
  intro s t hst
  unfold Store.perform
  rcases Store.applied_of_blank hc hcd hst.store with ⟨a, b, s', t', hs, ht, hanswer, hafter⟩ | ⟨r, hs, ht⟩
  · simp only [hs, ht]
    refine .ok (.of_answers hanswer) ⟨?_, hst.events, hst.bound, hst.cursors, hst.marks⟩
    rw [hslot, hslot]
    exact hafter
  · simp only [hs, ht, Command.fault_congr hcd]
    split
    · exact .error hst
    · exact .ok (.same _) hst

theorem dispatch (hslot : slot.Lawful) {c d : Command} (hc : ¬ c.Counts) (hcd : c.blank = d.blank) :
    Call.Alike slot SameButContent ((Store.backend slot).dispatch c) ((Store.backend slot).dispatch d) := by
  unfold Backend.dispatch
  rw [Command.summary_congr hcd]
  refine .bind (.note _ _ _) fun _ _ _ => .recover (.perform hslot hc hcd) fun e => ?_
  refine .bind (.ofExcept _) fun text _ htext => ?_
  subst htext
  refine .bind (.note _ _ _) fun _ _ _ => .bind (.ofExcept _) fun f _ hf => ?_
  subst hf
  exact .pure (.same _)

end Call.Alike

/-! ### Batches -/

theorem forall₂_getElem? {R : α → β → Prop} {as : List α} {bs : List β} (h : List.Forall₂ R as bs)
    (i : Nat) :
    (as[i]? = none ∧ bs[i]? = none) ∨ ∃ a b, as[i]? = some a ∧ bs[i]? = some b ∧ R a b := by
  induction h generalizing i with
  | nil => exact .inl ⟨rfl, rfl⟩
  | cons hab _ ih =>
    cases i with
    | zero => exact .inr ⟨_, _, rfl, rfl, hab⟩
    | succ i => exact ih i

namespace Batch

variable {slot : Slot σ Store} {cursor : Option Nat} {items items' : List (Item (Program σ))}
  {s t : Run σ}

theorem getElem?_given (b : Backend σ) (i : Nat) :
    (bound b (.given cursor items)).items[i]? =
      (items[i]?).map fun item w => itemReplyOn b (.ok item w) := by
  rw [getElem?_bound, Source.given, List.getElem?_map, Option.map_map]
  rfl

/-- Items that are there are pulled without a change but to how far the source has been pulled. -/
theorem pull_given (b : Backend σ) (n : Nat) (i : Item (Program σ)) (s : Run σ) :
    pull (bound b (.given cursor items)) n (fun w => itemReplyOn b (.ok i w)) s =
      .ok (itemOn b i) (moveTo (bound b (.given cursor items)) (n + 1) s) :=
  pull_bound n (fun w => .ok i w) s

theorem position_congr (h : Run.Alike slot s t) (b : Backend σ) (own : Nat) :
    position (bound b (.given cursor items)) own s = position (bound b (.given cursor items')) own t := by
  unfold position Run.pulled
  rw [h.cursors]
  rfl

theorem alike_moveTo (h : Run.Alike slot s t) (b : Backend σ) (n : Nat) :
    Run.Alike slot (moveTo (bound b (.given cursor items)) n s)
      (moveTo (bound b (.given cursor items')) n t) := by
  cases cursor with
  | none => exact h
  | some c => exact h.setPulled c n

theorem alike_failure (index : Int) (cause : Fault) :
    Call.Alike slot Eq (failure index cause) (failure index cause) := by
  intro s t hst
  unfold failure
  cases cause.written with
  | error e => exact .error hst
  | ok text =>
    obtain ⟨hcause, hafter⟩ := hst.marking cause
    exact .ok (congrArg (Outcome.failure index) hcause) hafter

theorem alike_createRecord (hslot : slot.Lawful) (index : Int) (x y : String)
    (shown shown' : Except Fault String) (key : Result) :
    Call.Alike slot Eq
      (createRecord (Store.backend slot) index
        (fun k => .mk ((Store.backend slot).dispatch (.create k x)) []) shown (.inl key))
      (createRecord (Store.backend slot) index
        (fun k => .mk ((Store.backend slot).dispatch (.create k y)) []) shown' (.inl key)) := by
  cases key with
  | error e => exact alike_failure index e
  | ok raw =>
    unfold createRecord
    simp only
    cases Key.ofValue raw with
    | error e =>
      refine .bind (.ofExcept _) fun f _ hf => ?_
      subst hf
      exact alike_failure index f
    | ok k =>
      have hcreate : Call.Alike slot SameButContent
          (execute (Store.backend slot) (.mk ((Store.backend slot).dispatch (.create k x)) []))
          (execute (Store.backend slot) (.mk ((Store.backend slot).dispatch (.create k y)) [])) := by
        unfold execute
        rw [Job.run_mk_nil, Job.run_mk_nil]
        exact .dispatch hslot id rfl
      refine hcreate.bind fun r r' h => ?_
      cases h with
      | same r =>
        cases r with
        | ok v => exact .pure rfl
        | error e => exact alike_failure index e
      | document => exact .pure rfl

theorem execute_ofResult (slot : Slot σ Store) (key : Result) :
    execute (Store.backend slot) (Program.on (Store.backend slot) (Program.ofResult key)) =
      Pure.pure (.inl key) := by
  unfold execute
  rw [Store.whenConnected_backend]
  cases key with
  | ok v => rw [Program.ofResult, Program.pure, Program.on, stagesOn, Job.run_mk_nil, Root.call]
  | error e => rw [Program.ofResult, Program.fail, Program.on, stagesOn, Job.run_mk_nil, Root.call]

/-- What an item of a batch does is the same for any content. -/
theorem alike_createOne (hslot : slot.Lawful) (index : Int) {i j : Item (Program σ)} (h : Item.Twin i j) :
    Call.Alike slot Eq (createOne (Store.backend slot) index (itemOn (Store.backend slot) i))
      (createOne (Store.backend slot) index (itemOn (Store.backend slot) j)) := by
  cases h with
  | failed cause =>
    rw [itemOn]
    exact alike_failure index cause
  | record key x y =>
    rw [itemOn, itemOn, createOne, createOne, execute_ofResult, pure_bind, pure_bind]
    exact alike_createRecord hslot index x y _ _ key

/-- A batch does the same for any contents, and stops at the same place. -/
theorem alike_drain (hslot : slot.Lawful) (h : List.Forall₂ Item.Twin items items')
    (verdict : String → String → Except Fault Bool) (turns own : Nat) (outcome : Outcome Fault) :
    Call.Alike slot Eq
      (drain (Store.backend slot) (.ofText verdict) (bound (Store.backend slot) (.given cursor items))
        turns own outcome)
      (drain (Store.backend slot) (.ofText verdict) (bound (Store.backend slot) (.given cursor items'))
        turns own outcome) := by
  induction turns generalizing own outcome with
  | zero => exact .pure rfl
  | succ turns ih =>
    intro s t hst
    rw [drain_succ, drain_succ, getElem?_given, getElem?_given, position_congr hst]
    rcases forall₂_getElem? h (position (bound (Store.backend slot) (.given cursor items')) own t) with
      ⟨hi, hj⟩ | ⟨i, j, hi, hj, hij⟩
    · rw [hi, hj]
      exact .ok rfl hst
    · rw [hi, hj, Option.map_some, Option.map_some]
      simp only
      rw [bind_of_ok (pull_given ..), bind_of_ok (pull_given ..)]
      refine Call.Alike.bind (alike_createOne hslot own hij) (fun step _ hstep => ?_) _ _
        (alike_moveTo hst _ _)
      subst hstep
      cases step.failures.head? with
      | none => exact ih _ _
      | some f =>
        refine .bind (.ofExcept _) fun text _ htext => ?_
        subst htext
        refine .bind (.note _ _ _) fun _ _ _ => .bind (.policy verdict f.cause) fun goOn _ hgo => ?_
        subst hgo
        cases goOn with
        | true => exact ih _ _
        | false => exact .pure rfl

theorem alike_run (hslot : slot.Lawful) (h : List.Forall₂ Item.Twin items items')
    (verdict : String → String → Except Fault Bool) :
    Call.Alike slot Eq
      (run (Store.backend slot) (.ofText verdict) (bound (Store.backend slot) (.given cursor items)))
      (run (Store.backend slot) (.ofText verdict) (bound (Store.backend slot) (.given cursor items'))) := by
  have hlength : (bound (Store.backend slot) (.given cursor items')).items.length =
      (bound (Store.backend slot) (.given cursor items)).items.length := by
    rw [length_bound, length_bound, Source.given, Source.given, List.length_map, List.length_map,
      h.length_eq]
  unfold run
  rw [hlength]
  refine .bind (R := Eq) (fun s t hst => .ok rfl (hst.enter ..)) fun _ _ _ => ?_
  refine .ensure (.bind (.note _ _ _) fun _ _ _ => ?_) fun s t hst => hst.finish
  refine .bind (alike_drain hslot h verdict _ _ _) fun end_ _ hend => ?_
  subst hend
  exact .bind (.note _ _ _) fun _ _ _ => .pure rfl

end Batch

/-! ### Programs -/

section

variable {slot : Slot σ Store}

theorem Program.execute_batch (b : Backend σ) (source : Source (Program σ) σ) (policy : Policy σ) :
    (Program.batch source policy).execute b =
      b.whenConnected (Batch.asRoot b policy (Batch.bound b source)) := by
  show b.whenConnected (Job.run (Program.on b (Program.batch source policy))) = _
  rw [Program.batch, Program.on, Root.call, stagesOn, Job.run_mk_nil]
  rfl

/-- A program does the same for any contents. -/
theorem Program.Twin.alike (hslot : slot.Lawful) {p q : Program σ} (h : Program.Twin p q) :
    Call.Alike slot SameButContent (p.execute (Store.backend slot)) (q.execute (Store.backend slot)) := by
  cases h with
  | command hc hcd =>
    rw [Program.execute_command, Program.execute_command, Store.whenConnected_backend,
      Store.whenConnected_backend]
    exact .dispatch hslot hc hcd
  | batch hitems =>
    rw [Program.execute_batch, Program.execute_batch, Store.whenConnected_backend,
      Store.whenConnected_backend]
    unfold Batch.asRoot
    refine .bind (.note _ _ _) fun _ _ _ => .recover ?_ fun e => ?_
    · refine .bind (Batch.alike_run hslot hitems _) fun o _ ho => ?_
      subst ho
      exact .pure (.same _)
    · refine .bind (.ofExcept _) fun f _ hf => ?_
      subst hf
      exact .pure (.same _)

theorem Store.alike_executeAll (hslot : slot.Lawful) {ps qs : List (Program σ)}
    (h : List.Forall₂ Program.Twin ps qs) :
    Call.Alike slot (List.Forall₂ SameButContent) (executeAll slot ps) (executeAll slot qs) := by
  induction h with
  | nil => exact .pure .nil
  | cons hpq _ ih =>
    unfold executeAll
    exact .bind (hpq.alike hslot) fun _ _ hr => .bind ih fun _ _ hrs => .pure (.cons hr hrs)

end

/-! ## Top theorems -/

/-- Contents are neither logged nor do they steer a run.  Lists of programs that are the same but for
contents, run on stores that start from maps that are the same but for contents, note the same events,
but for the names of batches, and come to the same results, but for contents: the same versions, errors
and outcomes of batches.  Both return or both raise one error, and leave stores that are the same but
for contents. -/
theorem contents_unseen {slot : Slot σ Store} (hslot : slot.Lawful) {ps qs : List (Program σ)}
    (hprograms : List.Forall₂ Program.Twin ps qs) {m n : StartMap} (hmaps : m.blank = n.blank)
    (s : Run σ) (batches : Nat) :
    Reply.Alike slot (List.Forall₂ SameButContent)
      (Store.executeAll slot ps { s with world := slot.set (Store.ofStart m) s.world })
      (Store.executeAll slot qs
        { s with world := slot.set (Store.ofStart n) s.world, batches := batches }) := by
  refine Store.alike_executeAll hslot hprograms _ _ ⟨?_, rfl, rfl, rfl, rfl⟩
  rw [hslot, hslot, Store.blank_ofStart, Store.blank_ofStart, hmaps]

/-- A start map with one document. -/
def sealedStart (content : String) : StartMap where
  docs := .ofList [(.a, ⟨content, ⟨3⟩⟩)]
  lastVersion := some 8

/-- An update that comes too late, a batch with a key that is taken and one that is empty, and a look at
the document. -/
def sealedPrograms (x y z : String) : List (Program Store) :=
  [Program.command (.update .a x ⟨2⟩),
    Program.batch (.given none [.record (Program.ofResult (.ok (.text "b"))) y,
      .record (Program.ofResult (.ok (.text "a"))) z, .failed (.notFound "m" none),
      .record (Program.ofResult (.ok (.text ""))) x]) (.ofText fun _ _ => .ok true),
    Program.command (.get .a)]

/-- What is written, what is refused and what is in store makes no difference to the log. -/
theorem sealed_contents_unseen :
    (List.Forall₂ Program.Twin (sealedPrograms "x" "y" "z") (sealedPrograms "u" "v" "w") ∧
      (sealedStart "p").blank = (sealedStart "q").blank) ∧
    Reply.Alike Slot.whole (List.Forall₂ SameButContent)
      (Store.executeAll Slot.whole (sealedPrograms "x" "y" "z")
        (Run.start (Store.ofStart (sealedStart "p"))))
      (Store.executeAll Slot.whole (sealedPrograms "u" "v" "w")
        { Run.start (Store.ofStart (sealedStart "q")) with batches := 4 }) := by
  have hprograms : List.Forall₂ Program.Twin (sealedPrograms "x" "y" "z") (sealedPrograms "u" "v" "w") := by
    refine .cons (.command (by decide) rfl) (.cons (.batch ?_) (.cons (.command (by decide) rfl) .nil))
    exact .cons (.record ..) (.cons (.record ..) (.cons (.failed _) (.cons (.record ..) .nil)))
  have hmaps : (sealedStart "p").blank = (sealedStart "q").blank := by decide
  exact ⟨⟨hprograms, hmaps⟩, contents_unseen Slot.lawful_whole hprograms hmaps
    (Run.start (Store.ofStart (sealedStart "p"))) 4⟩

end CasStore
