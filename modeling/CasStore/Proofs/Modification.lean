import CasStore.Proofs.Composition
import CasStore.Proofs.Endings
import CasStore.Proofs.Splitting
import CasStore.Typed

/-!
# Changing a typed document

A typed document is changed by reading it, changing its value and writing the new value under the key
that it names, with the version that was read.  That key may be another one.  Then nothing is written:
no two documents have one version, so the version that was read is no other document's.

    no two documents have one version                                (distinct_afterCommands)
    a document is changed under its own key, or nothing is           (changeable_or_refused)
    which of the two it is the new value's key decides               (change_touches_own_document)
-/

namespace CasStore

variable {σ : Type}

/-! ## Algorithm -/

/-- The functions of a codec leave the store in `slot` as it is. -/
structure Codec.Spares (slot : Slot σ Store) (codec : Codec σ) : Prop where
  serialize : ∀ v w, slot.get (Reply.left (codec.serialize v w)) = slot.get w
  deserialize : ∀ v w, slot.get (Reply.left (codec.deserialize v w)) = slot.get w
  keyFor : ∀ v w, slot.get (Reply.left (codec.keyFor v w)) = slot.get w

/-- What the functions of a codec raise can be caught and said. -/
structure Codec.Tame (codec : Codec σ) : Prop where
  serialize : ∀ v w, Reply.Tame (codec.serialize v w)
  deserialize : ∀ v w, Reply.Tame (codec.deserialize v w)
  keyFor : ∀ v w, Reply.Tame (codec.keyFor v w)

/-- A store that nothing has been done to. -/
def Store.fresh : Store := ⟨.empty, 0⟩

/-- Every document has a version that is set, and no other document has it. -/
structure View.Distinct (v : View) : Prop where
  pos : ∀ {k d}, v.doc? k = some d → 0 < d.version.number
  unique : ∀ {k l d e}, v.doc? k = some d → v.doc? l = some e → d.version = e.version → k = l

namespace Typed

/-- From the world `w` a content is decoded, its value changed, and the key and the content derived of
the changed value, and none of this raises. -/
inductive Remade (codec : Codec σ) (change : Value → σ → Reply σ Value) (content : String) (w : σ) :
    Value → Key → String → σ → Prop
  | made {v w₁ changed w₂ k w₃ text w₄} (hvalue : codec.deserialize (.text content) w = .ok (.ok v) w₁)
      (hchange : change v w₁ = .ok changed w₂) (hkey : codec.keyFor changed w₂ = .ok k w₃)
      (htext : codec.serialize changed w₃ = .ok text w₄) : Remade codec change content w changed k text w₄

/-- The document under `key` can be changed: its changed value names the same key again. -/
def Changeable (codec : Codec σ) (change : Value → σ → Reply σ Value) (key : Key) (store : Store) (w : σ) :
    Prop :=
  ∃ d changed text w', store.docs.find? key = some d ∧ Remade codec change d.content w changed key text w'

/-- A program has failed, or gone under in an interrupt or over an error whose message cannot be written; in
any case the store is as it was. -/
inductive Refused (slot : Slot σ Store) (store : Store) : Reply (Run σ) LooseResult → Prop
  | failed {e t} (h : slot.get t.world = store) : Refused slot store (.ok (.inl (.error e)) t)
  | interrupted {e t} (he : e.isOrdinary = false) (h : slot.get t.world = store) :
      Refused slot store (.error e t)
  | unsaid {t} (h : slot.get t.world = store) : Refused slot store (.error (.ofNumeral .tooLarge) t)

end Typed

/-! ## Lemmas -/

/-! ### Versions of one document each -/

/-- A command leaves every version with one document, as its own key alone gets the next one. -/
theorem Move.distinct {v v' : View} {c : Command} {a : Except Fault LooseResult} (h : Move v c a v')
    (hbounded : v.Bounded) (hnonneg : 0 ≤ v.last) (hv : v.Distinct) : v'.Distinct := by
  have hold : ∀ {k d}, k ≠ c.key → v'.doc? k = some d → v.doc? k = some d := fun hk hd =>
    (h.doc?_of_ne hk).symm.trans hd
  -- a version under the key of the command is an old one of that key, or higher than all old ones
  have happart : ∀ {k d e}, k ≠ c.key → v'.doc? k = some d → v'.doc? c.key = some e →
      d.version ≠ e.version := by
    intro k d e hk hd he heq
    have hd := hold hk hd
    rcases h.doc?_after he with he | ⟨hnext, -⟩
    · exact hk (hv.unique hd he heq)
    · have := hbounded k d hd
      rw [heq] at this
      omega
  refine ⟨fun {k d} hd => ?_, fun {k l d e} hd he heq => ?_⟩
  · rcases h.doc?_after hd with hd | ⟨hnext, -⟩
    · exact hv.pos hd
    · omega
  · by_cases hk : k = c.key
    · by_cases hl : l = c.key
      · rw [hk, hl]
      · subst hk
        exact absurd heq.symm (happart hl he hd)
    · by_cases hl : l = c.key
      · subst hl
        exact absurd heq (happart hk hd he)
      · exact hv.unique (hold hk hd) (hold hl he) heq

namespace Store

theorem sound_fresh : fresh.Sound := ⟨fun _ _ h => (Option.some_ne_none _ h.symm).elim, Int.le_refl 0⟩

theorem distinct_fresh : fresh.view.Distinct :=
  ⟨fun h => (Option.some_ne_none _ h.symm).elim, fun h => (Option.some_ne_none _ h.symm).elim⟩

theorem distinct_afterCommands {s : Store} (hs : s.Sound) (hd : s.view.Distinct) (cs : List Command) :
    (s.afterCommands cs).view.Distinct := by
  induction cs generalizing s with
  | nil => exact hd
  | cons c cs ih =>
    exact ih (hs.afterCommand c) ((s.answered_move c).distinct hs.bounded hs.nonneg hd)

end Store

/-! ### Failures -/

section

variable {slot : Slot σ Store} {store : Store} {rest : List (Stage (Root σ) σ)} {s : Run σ}

/-- Stages on the side of success leave a failure a failure. -/
theorem evaluateStages_error {b : Backend σ} (hrest : ∀ st ∈ rest, st.kind.onSuccess = true) (e : Fault)
    (s : Run σ) :
    ∃ e' t, evaluateStages (Root.call b) rest (.inl (.error e)) s = .ok (.inl (.error e')) t ∧
      t.world = s.world := by
  induction rest generalizing e s with
  | nil => exact ⟨e, s, rfl, rfl⟩
  | cons st rest ih =>
    have hst := hrest st (List.mem_cons_self ..)
    have hskip : ∀ e' : Fault, evaluateStage (Root.call b) st (.error e') =
        pure (.inl (.error e')) := fun e' => evaluateStage_skip (by rw [hst]; exact Bool.noConfusion)
    obtain ⟨e', t, hrun, hworld⟩ := ih (fun st' h => hrest st' (List.mem_cons_of_mem _ h))
      (Run.marking e s).1 (Run.marking e s).2
    refine ⟨e', t, ?_, hworld.trans (Run.world_marking e s)⟩
    have hseen : asResult (.inl (.error e)) s = .ok (.error (Run.marking e s).1) (Run.marking e s).2 := rfl
    rw [evaluateStages, bind_assoc, bind_of_ok hseen, hskip]
    exact hrun

namespace Typed

theorem Refused.of_failure (hrest : ∀ st ∈ rest, st.kind.onSuccess = true)
    (h : slot.get s.world = store) (e : Fault) :
    Refused slot store (evaluateStages (Root.call (Store.backend slot)) rest (.inl (.error e)) s) := by
  obtain ⟨e', t, hrun, hworld⟩ := evaluateStages_error (b := Store.backend slot) hrest e s
  rw [hrun]
  exact .failed (by rw [hworld]; exact h)

/-- What the function of a stage raises ends the program, where stages on the side of success follow. -/
theorem Refused.of_raised (hrest : ∀ st ∈ rest, st.kind.onSuccess = true) {w : σ}
    (h : slot.get w = store) (e : Fault) :
    Refused slot store
      ((evaluateReply (Root.call (Store.backend slot)) .andThen (.error e w) >>=
        evaluateStages (Root.call (Store.backend slot)) rest) s) := by
  have hreply : evaluateReply (Root.call (Store.backend slot)) .andThen (.error e w) s =
      raisedBy .andThen e { s with world := w } := by rw [evaluateReply]
  rw [raisedBy] at hreply
  rcases stageRaised_cases .andThen e with ⟨f, hf⟩ | ⟨ho, hf⟩ | ⟨-, hf⟩
  · rw [hf] at hreply
    rw [bind_of_ok hreply]
    exact .of_failure hrest h _
  · rw [hf] at hreply
    rw [bind_of_error hreply]
    exact .interrupted ho h
  · rw [hf] at hreply
    rw [bind_of_error hreply]
    exact .unsaid h

end Typed

end

/-! ### Reading, changing and writing -/

namespace Typed

variable {slot : Slot σ Store} {codec : Codec σ} {change : Value → σ → Reply σ Value} {key k : Key}
  {s : Run σ}

/-- The second stage of a change. -/
abbrev writing (codec : Codec σ) (change : Value → σ → Reply σ Value) : Stage (Root σ) σ :=
  .andThen fun current => asNext (writeBack codec change current)

theorem onSuccess_writing (codec : Codec σ) (change : Value → σ → Reply σ Value) :
    ∀ st ∈ [writing codec change], st.kind.onSuccess = true :=
  List.forall_mem_singleton.2 rfl

/-- Where no document is, there is none to change. -/
theorem refused_of_absent (h : (slot.get s.world).docs.find? key = none) :
    Refused slot (slot.get s.world) ((modify codec key change).execute (Store.backend slot) s) := by
  have hget : (slot.get s.world).apply (.get key) = .error .absent := by
    simp only [Store.apply, h]
  obtain ⟨e, t, hdispatch, hworld, -⟩ := Store.dispatch_of_error hget
  rw [Program.execute_eq_whenConnected, Store.whenConnected_backend]
  show Refused slot _ (((Store.backend slot).dispatch (.get key) >>= evaluateStages _ _) s)
  rw [bind_of_ok hdispatch]
  refine .of_failure ?_ (by rw [hworld]) e
  exact List.forall_mem_cons.2 ⟨rfl, onSuccess_writing codec change⟩

/-- A document that is there is decoded next. -/
theorem execute_of_found (codec : Codec σ) (change : Value → σ → Reply σ Value) (hslot : slot.Faithful)
    {d : Document} (h : (slot.get s.world).docs.find? key = some d) :
    ∃ t : Run σ, t.world = s.world ∧
      (modify codec key change).execute (Store.backend slot) s =
        (evaluateReply (Root.call (Store.backend slot)) .andThen (asNext (decode codec d.toValue) s.world) >>=
          evaluateStages (Root.call (Store.backend slot)) [writing codec change]) t := by
  have hget : (slot.get s.world).apply (.get key) = .ok (.document d, slot.get s.world) := by
    simp only [Store.apply, h]
  obtain ⟨t, hdispatch, hworld, -⟩ := Store.dispatch_of_ok hget
  rw [hslot.restore] at hworld
  refine ⟨t, hworld, ?_⟩
  rw [Program.execute_eq_whenConnected, Store.whenConnected_backend]
  show ((Store.backend slot).dispatch (.get key) >>= evaluateStages _ _) s = _
  rw [bind_of_ok hdispatch, ← hworld]
  rfl

/-- A value that was decoded is changed next. -/
theorem changing_of_decoded {d : Document} {v : Value} {w w₁ : σ}
    (hvalue : codec.deserialize (.text d.content) w = .ok (.ok v) w₁) (s : Run σ) :
    (evaluateReply (Root.call (Store.backend slot)) .andThen (asNext (decode codec d.toValue) w) >>=
        evaluateStages (Root.call (Store.backend slot)) [writing codec change]) s =
      (evaluateReply (Root.call (Store.backend slot)) .andThen
          (asNext (writeBack codec change (.typed v d.version)) w₁) >>=
        evaluateStages (Root.call (Store.backend slot)) []) { s with world := w₁ } := by
  have hnext : asNext (decode codec d.toValue) w =
      .ok (.program (Program.pure (.typed v d.version))) w₁ := by
    simp only [asNext, decode, Document.toValue, hvalue]
  rw [hnext]
  rfl

/-- The update with a changed value, under the key that the value names. -/
abbrev rewriting (changed : Value) (k : Key) (text : String) (version : Version) : Program σ :=
  (Program.command (.update k text version)).map (written changed)

/-- What was changed is written next. -/
theorem next_of_remade {version : Version} {v changed : Value} {w₁ w₂ w₃ w₄ : σ}
    {text : String} (hchange : change v w₁ = .ok changed w₂)
    (hkey : codec.keyFor changed w₂ = .ok k w₃) (htext : codec.serialize changed w₃ = .ok text w₄) :
    asNext (writeBack codec change (.typed v version)) w₁ =
      .ok (.program (rewriting changed k text version)) w₄ := by
  simp only [asNext, writeBack, hchange, update, hkey, htext]

/-- The document that has the version is replaced. -/
theorem evaluate_rewriting (hslot : slot.Lawful) {d : Document}
    (h : (slot.get s.world).docs.find? key = some d) (changed : Value) (text : String) :
    ∃ t, Program.evaluate (Store.backend slot) (rewriting changed key text d.version) s =
        .ok (.inl (.ok (.typed changed (slot.get s.world).nextVersion))) t ∧
      slot.get t.world = ((slot.get s.world).write key text).2 := by
  have hupdate : (slot.get s.world).apply (.update key text d.version) =
      .ok (.document ((slot.get s.world).write key text).1, ((slot.get s.world).write key text).2) := by
    simp only [Store.apply, h, bne_self_eq_false, Bool.and_false, Bool.false_eq_true, if_false]
  obtain ⟨t, hdispatch, hworld, -⟩ := Store.dispatch_of_ok hupdate
  refine ⟨t, ?_, by rw [hworld, hslot]⟩
  show ((Store.backend slot).dispatch _ >>= evaluateStages _ [.map (written changed)]) s = _
  rw [bind_of_ok hdispatch]
  rfl

/-- Any other document is not. -/
theorem refused_rewriting {version : Version} (hset : version.isSet = true)
    (h : ∀ d, (slot.get s.world).docs.find? k = some d → d.version ≠ version) (changed : Value)
    (text : String) :
    Refused slot (slot.get s.world)
      (Program.evaluate (Store.backend slot) (rewriting changed k text version) s) := by
  have hupdate : ∃ r, (slot.get s.world).apply (.update k text version) = .error r := by
    simp only [Store.apply]
    cases hd : (slot.get s.world).docs.find? k with
    | none => exact ⟨_, rfl⟩
    | some d =>
      have hstale : (version != d.version) = true := bne_iff_ne.2 (h d hd).symm
      simp only [hset, hstale, Bool.and_self, if_true]
      exact ⟨_, rfl⟩
  obtain ⟨r, hr⟩ := hupdate
  obtain ⟨e, t, hdispatch, hworld, -⟩ := Store.dispatch_of_error hr
  show Refused slot _ (((Store.backend slot).dispatch _ >>= evaluateStages _ [.map (written changed)]) s)
  rw [bind_of_ok hdispatch]
  exact .of_failure (List.forall_mem_singleton.2 rfl) (by rw [hworld]) e

/-- The functions of a codec, and one that changes values, leave the store as it is. -/
structure SparedBy (slot : Slot σ Store) (codec : Codec σ) (change : Value → σ → Reply σ Value) : Prop
    extends Codec.Spares slot codec where
  change : ∀ v w, slot.get (Reply.left (change v w)) = slot.get w

section

variable (hspared : SparedBy slot codec change)

include hspared

theorem SparedBy.get_remade {content text : String} {w w' : σ} {changed : Value}
    (h : Remade codec change content w changed k text w') : slot.get w' = slot.get w := by
  cases h with
  | @made v w₁ _ w₂ _ w₃ _ _ hvalue hchange hkey htext =>
    have hread := hspared.deserialize (.text content) w
    have hchanged := hspared.change v w₁
    have hnamed := hspared.keyFor changed w₂
    have hwritten := hspared.serialize changed w₃
    rw [hvalue] at hread
    rw [hchange] at hchanged
    rw [hkey] at hnamed
    rw [htext] at hwritten
    exact hwritten.trans (hnamed.trans (hchanged.trans hread))

/-- Where a value keeps its key, its document is written. -/
theorem SparedBy.execute_of_remade (hslot : slot.Faithful) {d : Document}
    (hd : (slot.get s.world).docs.find? key = some d) {changed : Value} {text : String} {w : σ}
    (h : Remade codec change d.content s.world changed key text w) :
    ∃ t, (modify codec key change).execute (Store.backend slot) s =
        .ok (.inl (.ok (.typed changed (slot.get s.world).nextVersion))) t ∧
      slot.get t.world = ((slot.get s.world).write key text).2 := by
  have hget := hspared.get_remade h
  obtain ⟨t, -, hrun⟩ := execute_of_found codec change hslot hd
  cases h with
  | @made v w₁ _ w₂ _ w₃ _ _ hvalue hchange hkey htext =>
    rw [hrun, changing_of_decoded hvalue, next_of_remade hchange hkey htext]
    show ∃ u, (Program.evaluate (Store.backend slot) (rewriting changed key text d.version) >>=
      evaluateStages (Root.call (Store.backend slot)) []) { t with world := w } = _ ∧ _
    have hd' : (slot.get w).docs.find? key = some d := by rw [hget]; exact hd
    obtain ⟨u, hu, hstore⟩ := evaluate_rewriting (s := { t with world := w }) hslot.lawful hd' changed text
    rw [bind_of_ok hu, ← hget]
    exact ⟨u, rfl, hstore⟩

/-- A value that was decoded is changed and encoded, or one of the functions raises. -/
theorem SparedBy.writeBack_cases (v : Value) (version : Version) (w : σ) :
    (∃ e w', asNext (writeBack codec change (.typed v version)) w = .error e w' ∧
      slot.get w' = slot.get w) ∨
    ∃ changed k text w₂ w₃ w₄, change v w = .ok changed w₂ ∧ codec.keyFor changed w₂ = .ok k w₃ ∧
      codec.serialize changed w₃ = .ok text w₄ := by
  have hchanged := hspared.change v w
  cases hchange : change v w with
  | error e w' =>
    rw [hchange] at hchanged
    exact .inl ⟨e, w', by simp only [asNext, writeBack, hchange], hchanged⟩
  | ok changed w₂ =>
    rw [hchange] at hchanged
    have hnamed := hspared.keyFor changed w₂
    cases hkey : codec.keyFor changed w₂ with
    | error e w' =>
      rw [hkey] at hnamed
      exact .inl ⟨e, w', by simp only [asNext, writeBack, hchange, update, hkey], hnamed.trans hchanged⟩
    | ok k w₃ =>
      rw [hkey] at hnamed
      have hwritten := hspared.serialize changed w₃
      cases htext : codec.serialize changed w₃ with
      | error e w' =>
        rw [htext] at hwritten
        exact .inl ⟨e, w', by simp only [asNext, writeBack, hchange, update, hkey, htext],
          hwritten.trans (hnamed.trans hchanged)⟩
      | ok text w₄ => exact .inr ⟨changed, k, text, w₂, w₃, w₄, rfl, hkey, htext⟩

/-- The writing of a value that was decoded comes to nothing, unless the value keeps its key. -/
theorem SparedBy.remade_or_refused (hdistinct : (slot.get s.world).view.Distinct) {d : Document} {v : Value}
    {w₁ : σ} (hd : (slot.get s.world).docs.find? key = some d)
    (hvalue : codec.deserialize (.text d.content) s.world = .ok (.ok v) w₁) (t : Run σ) :
    (∃ changed text w, Remade codec change d.content s.world changed key text w) ∨
      Refused slot (slot.get s.world)
        ((evaluateReply (Root.call (Store.backend slot)) .andThen
            (asNext (writeBack codec change (.typed v d.version)) w₁) >>=
          evaluateStages (Root.call (Store.backend slot)) []) { t with world := w₁ }) := by
  have hread := hspared.deserialize (.text d.content) s.world
  rw [hvalue] at hread
  rcases hspared.writeBack_cases v d.version w₁ with
    ⟨e, w, hraised, hstore⟩ | ⟨changed, k, text, w₂, w₃, w₄, hchange, hkey, htext⟩
  · rw [hraised]
    exact .inr (.of_raised (List.forall_mem_nil _) (hstore.trans hread) e)
  · have hremade : Remade codec change d.content s.world changed k text w₄ :=
      .made hvalue hchange hkey htext
    by_cases hk : k = key
    · exact .inl ⟨changed, text, w₄, hk ▸ hremade⟩
    · -- the version that was read is that of the document under `key`, and of no other
      have hget := hspared.get_remade hremade
      have hother : ∀ e, (slot.get w₄).docs.find? k = some e → e.version ≠ d.version := by
        intro e he heq
        rw [hget] at he
        exact hk (hdistinct.unique he hd heq)
      have hset : d.version.isSet = true := by
        have := hdistinct.pos hd
        exact bne_iff_ne.2 (by omega)
      have hnothing := refused_rewriting (s := { t with world := w₄ }) hset hother changed text
      rw [next_of_remade hchange hkey htext, ← hget]
      rw [← bind_pure (Program.evaluate _ _)] at hnothing
      exact .inr hnothing

/-- A document is changed under its own key, or nothing is. -/
theorem SparedBy.changeable_or_refused (hslot : slot.Faithful) (hdistinct : (slot.get s.world).view.Distinct) :
    Changeable codec change key (slot.get s.world) s.world ∨
      Refused slot (slot.get s.world) ((modify codec key change).execute (Store.backend slot) s) := by
  cases hd : (slot.get s.world).docs.find? key with
  | none => exact .inr (refused_of_absent hd)
  | some d =>
    obtain ⟨t, -, hrun⟩ := execute_of_found codec change hslot hd
    have hread := hspared.deserialize (.text d.content) s.world
    rw [hrun]
    cases hvalue : codec.deserialize (.text d.content) s.world with
    | error e w =>
      have hraised : asNext (decode codec d.toValue) s.world = .error e w := by
        simp only [asNext, decode, Document.toValue, hvalue]
      rw [hvalue] at hread
      rw [hraised]
      exact .inr (.of_raised (onSuccess_writing codec change) hread e)
    | ok r w₁ =>
      cases r with
      | error e =>
        have hfailed : asNext (decode codec d.toValue) s.world = .ok (.program (Program.fail e)) w₁ := by
          simp only [asNext, decode, Document.toValue, hvalue]
        rw [hvalue] at hread
        rw [hfailed]
        exact .inr (.of_failure (s := { t with world := w₁ })
          (onSuccess_writing codec change) hread e)
      | ok v =>
        rw [changing_of_decoded hvalue]
        rcases hspared.remade_or_refused hdistinct hd hvalue t with ⟨changed, text, w, h⟩ | h
        · exact .inl ⟨d, changed, text, w, hd, h⟩
        · exact .inr h

end

/-! ### What can be caught and said -/

theorem replyTame_asNext {call : σ → Reply σ (Program σ)} {w : σ}
    (hcall : Reply.Gives Program.Tame Ordinary (call w)) : replyTame (asNext call w) := by
  unfold asNext
  cases h : call w with
  | ok p w' => rw [h] at hcall; exact hcall
  | error e w' => rw [h] at hcall; exact hcall

theorem tame_decode (hcodec : codec.Tame) (document : Value) (w : σ) :
    Reply.Gives Program.Tame Ordinary (decode codec document w) := by
  unfold decode
  split
  · next content version =>
    have hread := hcodec.deserialize content w
    cases h : codec.deserialize content w with
    | error e w' => rw [h] at hread; exact hread
    | ok r w' => cases r <;> exact ⟨trivial, trivial⟩
  · exact ordinary_noPart _ _

theorem tame_written (value document : Value) (w : σ) : Reply.Tame (written value document w) := by
  unfold written
  split
  · exact trivial
  · exact ordinary_noPart _ _

theorem tame_update (hcodec : codec.Tame) (value : Value) (version : Version) (w : σ) :
    Reply.Gives Program.Tame Ordinary (update codec value version w) := by
  have hnamed := hcodec.keyFor value w
  unfold update
  cases hkey : codec.keyFor value w with
  | error e w' => rw [hkey] at hnamed; exact hnamed
  | ok k w' =>
    have hwritten := hcodec.serialize value w'
    dsimp only
    cases htext : codec.serialize value w' with
    | error e w'' => rw [htext] at hwritten; exact hwritten
    | ok text w'' => exact ⟨trivial, tame_written value, trivial⟩

theorem tame_writeBack (hcodec : codec.Tame) (hchange : ∀ v w, Reply.Tame (change v w)) (current : Value)
    (w : σ) : Reply.Gives Program.Tame Ordinary (writeBack codec change current w) := by
  unfold writeBack
  split
  · next value version =>
    have hchanged := hchange value w
    cases h : change value w with
    | error e w' => rw [h] at hchanged; exact hchanged
    | ok changed w' => exact tame_update hcodec changed version w'
  · exact ordinary_noPart _ _

/-- A change raises ordinary errors only where the codec and the change do. -/
theorem tame_modify (key : Key) (hcodec : codec.Tame) (hchange : ∀ v w, Reply.Tame (change v w)) :
    Program.Tame (modify codec key change) :=
  ⟨trivial, fun document w => replyTame_asNext (tame_decode hcodec document w),
    fun current w => replyTame_asNext (tame_writeBack hcodec hchange current w), trivial⟩

/-! ## Top theorems -/

/-- What changing the document under `key` comes to, in a store that the commands `cs` have filled. -/
structure TouchesOwn (slot : Slot σ Store) (codec : Codec σ) (change : Value → σ → Reply σ Value)
    (key : Key) (cs : List Command) (s : Run σ) : Prop where
  /-- It succeeds just where the document can be decoded and changed, and the new value keeps the key. -/
  succeeds : (∃ v t, (modify codec key change).execute (Store.backend slot) s = .ok (.inl (.ok v)) t) ↔
    Changeable codec change key (slot.get s.world) s.world
  /-- Then the answer is the new value with a version higher than all before, the document under the key
  has the content of the new value and this version, and every other document is as it was. -/
  changed : ∀ d changed text w, (slot.get s.world).docs.find? key = some d →
    Remade codec change d.content s.world changed key text w →
    ∃ version t, (modify codec key change).execute (Store.backend slot) s =
        .ok (.inl (.ok (.typed changed version))) t ∧
      version.isSet = true ∧ (∀ v, Seen Store.fresh cs v → v.number < version.number) ∧
      (slot.get t.world).docs.find? key = some ⟨text, version⟩ ∧
      ∀ k, k ≠ key → (slot.get t.world).docs.find? k = (slot.get s.world).docs.find? k
  /-- Otherwise the store is as it was, whatever the functions raise. -/
  refused : ¬ Changeable codec change key (slot.get s.world) s.world →
    Refused slot (slot.get s.world) ((modify codec key change).execute (Store.backend slot) s)
  /-- And there is a failure, if what the functions raise can be caught and said. -/
  failed : codec.Tame → (∀ v w, Reply.Tame (change v w)) →
    ¬ Changeable codec change key (slot.get s.world) s.world →
    ∃ e t, (modify codec key change).execute (Store.backend slot) s = .ok (.inl (.error e)) t ∧
      slot.get t.world = slot.get s.world

/-- Changing a typed document writes the document that was read, and only it.  In a store that any commands
have filled from nothing it succeeds just where the document is there, can be decoded, changed and encoded,
and its new value names the key that was read; where it names another one nothing is written, even if there
is a document under that key. -/
theorem change_touches_own_document (slot : Slot σ Store) (hslot : slot.Faithful) (codec : Codec σ)
    (change : Value → σ → Reply σ Value) (hspared : SparedBy slot codec change) (key : Key)
    (cs : List Command) (s : Run σ) (hs : slot.get s.world = Store.fresh.afterCommands cs) :
    TouchesOwn slot codec change key cs s := by
  have hsound : (slot.get s.world).Sound := hs ▸ Store.sound_fresh.afterCommands cs
  have hdistinct : (slot.get s.world).view.Distinct :=
    hs ▸ Store.distinct_afterCommands Store.sound_fresh Store.distinct_fresh cs
  have hrefused : ¬ Changeable codec change key (slot.get s.world) s.world →
      Refused slot (slot.get s.world) ((modify codec key change).execute (Store.backend slot) s) :=
    (hspared.changeable_or_refused hslot hdistinct).resolve_left
  refine ⟨⟨?_, ?_⟩, ?_, hrefused, ?_⟩
  · rintro ⟨v, t, hrun⟩
    refine Classical.byContradiction fun hnot => ?_
    have h := hrefused hnot
    rw [hrun] at h
    cases h
  · rintro ⟨d, changed, text, w, hd, h⟩
    obtain ⟨t, hrun, -⟩ := hspared.execute_of_remade hslot hd h
    exact ⟨_, t, hrun⟩
  · intro d changed text w hd h
    obtain ⟨t, hrun, hstore⟩ := hspared.execute_of_remade hslot hd h
    have hlast := hsound.nonneg
    refine ⟨_, t, hrun, ?_, ?_, ?_, ?_⟩
    · exact bne_iff_ne.2 (by simp only [Store.nextVersion]; omega)
    · intro v hv
      have hle := (highWater Store.sound_fresh cs).above v hv
      rw [← hs] at hle
      exact Int.lt_add_one_of_le hle
    · rw [hstore, Store.find?_write, if_pos rfl]
    · intro k hk
      rw [hstore, Store.find?_write, if_neg hk]
  · intro hcodec hchange hnot
    obtain ⟨r, t, hrun⟩ := Program.exists_result (Store.sound_backend slot)
      (tame_modify key hcodec hchange) s
    have h := hrefused hnot
    rw [hrun] at h ⊢
    cases h with
    | failed h => exact ⟨_, t, rfl, h⟩

/-- The other key of the example. -/
abbrev otherKey : Key := ⟨"y", by decide⟩

/-- Texts that are their own contents.  The text `y` is its own key too, the key of any other value is `a`. -/
def plainTexts : Codec Store where
  serialize := fun v w =>
    match v with
    | .text s => .ok s w
    | v => .error (Fault.noPart v "text") w
  deserialize := fun v w => .ok (.ok v) w
  keyFor := fun v w =>
    match v with
    | .text "y" => .ok otherKey w
    | _ => .ok .a w

theorem exists_keyFor_plainTexts (v : Value) (w : Store) : ∃ k, plainTexts.keyFor v w = .ok k w := by
  unfold plainTexts
  dsimp only
  split <;> exact ⟨_, rfl⟩

theorem spares_plainTexts : Codec.Spares Slot.whole plainTexts where
  serialize v w := by cases v <;> rfl
  deserialize _ _ := rfl
  keyFor v w := by
    obtain ⟨k, hk⟩ := exists_keyFor_plainTexts v w
    rw [hk]
    rfl

theorem tame_plainTexts : plainTexts.Tame where
  serialize v w := by
    cases v with
    | text s => trivial
    | _ => exact ordinary_noPart _ _
  deserialize _ _ := trivial
  keyFor v w := by
    obtain ⟨k, hk⟩ := exists_keyFor_plainTexts v w
    rw [hk]
    trivial

/-- The change of any value to a text. -/
def become (s : String) : Value → Store → Reply Store Value := fun _ w => .ok (.text s) w

/-- The text `x` is stored under its key, and the text `y`. -/
def twoTexts : List Command := [.create .a "x", .create otherKey "y"]

/-- `x` can be changed to `z`, which has its key.  It cannot be changed to `y`, the key of which is that of
the other document; then both documents stay. -/
theorem other_document_kept :
    (Slot.whole : Slot Store Store).Faithful ∧ (∀ v, SparedBy Slot.whole plainTexts (become v)) ∧
    (∃ version t, (modify plainTexts .a (become "z")).execute (Store.backend Slot.whole)
        (Run.start (Store.fresh.afterCommands twoTexts)) =
          .ok (.inl (.ok (.typed (.text "z") version))) t ∧
      2 < version.number ∧ t.world.docs.find? .a = some ⟨"z", version⟩) ∧
    ∃ e t, (modify plainTexts .a (become "y")).execute (Store.backend Slot.whole)
        (Run.start (Store.fresh.afterCommands twoTexts)) = .ok (.inl (.error e)) t ∧
      t.world = Store.fresh.afterCommands twoTexts := by
  have hslot : (Slot.whole : Slot Store Store).Faithful := ⟨fun _ _ => rfl, fun _ => rfl⟩
  have hspared : ∀ v, SparedBy Slot.whole plainTexts (become v) := fun _ =>
    ⟨spares_plainTexts, fun _ _ => rfl⟩
  refine ⟨hslot, hspared, ?_, ?_⟩
  · obtain ⟨version, t, hrun, -, hseen, hd, -⟩ := (change_touches_own_document _ hslot _ _ (hspared "z") .a
      twoTexts (Run.start _) rfl).changed ⟨"x", ⟨1⟩⟩ _ _ _ rfl (.made rfl rfl rfl rfl)
    exact ⟨version, t, hrun, hseen ⟨2⟩ ⟨twoTexts, [], otherKey, ⟨"y", ⟨2⟩⟩, rfl, rfl, rfl⟩, hd⟩
  · have hnot : ¬ Changeable plainTexts (become "y") .a (Store.fresh.afterCommands twoTexts)
        (Store.fresh.afterCommands twoTexts) := by
      rintro ⟨d, changed, text, w, -, h⟩
      cases h with
      | made hvalue hchange hkey htext =>
        cases hchange
        have hother : otherKey = .a := (EStateM.Result.ok.inj hkey).1
        exact absurd hother (by decide)
    exact (change_touches_own_document _ hslot _ _ (hspared "y") .a twoTexts (Run.start _) rfl).failed
      tame_plainTexts (fun _ _ => trivial) hnot

end Typed

end CasStore
