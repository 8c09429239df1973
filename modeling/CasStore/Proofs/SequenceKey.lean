import CasStore.Proofs.Clients

/-!
# The key that names the sequence

A bucket keeps the sequence of its versions among its documents, under a name that is also a key.  Every
command may name that key.  It cannot read or write the sequence, and creating it or counting in it only
begins it; but a removal takes it away, and then versions are given out from 1 again.  As long as that
does not happen, no version of a bucket is given out twice.

    a command about the sequence fails, and at most begins it        (turn_reserved)
    versions rise from write to write                                (Advancing.pairwise_issues)
    what was read before a removal is never in place again           (Advancing.neverReissued)
-/

namespace CasStore

variable {σ : Type}

/-! ## Algorithm -/

/-- The key that names the sequence of versions. -/
def Session.sequenceKey : Key := ⟨Session.versionSequence, by decide⟩

/-- `v'` may come after `v`: the highest version has not sunk, and a document was there before or has a
version that was given out in between. -/
structure View.Precedes (v v' : View) : Prop where
  last_le : v.last ≤ v'.last
  document : ∀ k d, v'.doc? k = some d →
    v.doc? k = some d ∨ (v.last < d.version.number ∧ d.version.number ≤ v'.last)

/-- A write has given out the version `w`: it has stored it, and answered with it unless it counts. -/
structure Turn.Issues (view : σ → View) (t : Turn σ) (w : Version) : Prop where
  writes : t.Writes
  stored : ∃ content, (view t.after.world).doc? t.command.key = some ⟨content, w⟩ ∧
    ((∀ k i, t.command ≠ .increment k i) → t.Answers (Document.toValue ⟨content, w⟩))

/-- The turn has removed the sequence of versions. -/
def Turn.DropsSequence (t : Turn σ) : Prop := t.command = .remove Session.sequenceKey ∧ t.Succeeds

instance (t : Turn σ) : Decidable t.DropsSequence := inferInstanceAs (Decidable (_ ∧ _))

/-- In a row of turns no version is given out again. -/
structure NeverReissued (view : σ → View) (ts : List (Turn σ)) : Prop where
  /-- Every successful write gives out a version. -/
  issued : ∀ t ∈ ts, t.Writes → ∃ w, t.Issues view w
  /-- It is higher than every version given out before. -/
  rising : ts.Pairwise fun t u => ∀ v w, t.Issues view v → u.Issues view w → v.number < w.number
  /-- What `t` obtained before `r` removed the document, no later turn `u` finds in place: no document of
  the key has its version, and an update demands it in vain. -/
  stale : ∀ {ws xs ys zs : List (Turn σ)} {t r u : Turn σ} {k : Key} {d : Document},
    ts = ws ++ t :: (xs ++ r :: (ys ++ u :: zs)) → t.command.key = k → t.Answers d.toValue →
    r.command = .remove k → r.Succeeds →
    (∀ e, (view u.after.world).doc? k = some e → e.version ≠ d.version) ∧
      ∀ content, u.command = .update k content d.version → ¬ u.Succeeds

/-- What a turn may do where the sequence is not removed. -/
structure Turn.Advances (view : σ → View) (t : Turn σ) : Prop where
  precedes : (view t.before.world).Precedes (view t.after.world)
  issues : t.Writes → ∃ w, t.Issues view w ∧ (view t.before.world).last < w.number
  obtained : ∀ d : Document, t.Answers d.toValue →
    (view t.after.world).doc? t.command.key = some d
  removed : ∀ k, t.command = .remove k → t.Succeeds → (view t.after.world).doc? k = none
  demanded : ∀ k content w, t.command = .update k content w → w.isSet = true → t.Succeeds →
    ∃ d, (view t.before.world).doc? k = some d ∧ d.version = w

/-- Turns that advance lead from one run to another. -/
inductive Advancing (view : σ → View) : Run σ → List (Turn σ) → Run σ → Prop
  | nil (s) : Advancing view s [] s
  | cons {t ts s'} (h : t.Advances view) (hs : Advancing view t.after ts s') :
      Advancing view t.before (t :: ts) s'

/-! ## Lemmas -/

/-! ### Views -/

namespace View.Precedes

variable {u v v' : View}

theorem refl (v : View) : v.Precedes v := ⟨Int.le_refl _, fun _ _ hd => .inl hd⟩

theorem trans (h : u.Precedes v) (h' : v.Precedes v') : u.Precedes v' := by
  have hle := h.last_le
  have hle' := h'.last_le
  refine ⟨by omega, fun k d hd => ?_⟩
  rcases h'.document k d hd with hd | ⟨hlow, hhigh⟩
  · rcases h.document k d hd with hd | ⟨hlow, hhigh⟩
    · exact .inl hd
    · exact .inr ⟨hlow, by omega⟩
  · exact .inr ⟨by omega, hhigh⟩

theorem counted (h : v.Precedes v') (h0 : 0 ≤ v.last) (hv : v.Counted) : v'.Counted := by
  intro k d hd
  have hle := h.last_le
  rcases h.document k d hd with hd | ⟨hlow, hhigh⟩
  · have := hv k d hd
    omega
  · omega

theorem gone (h : v.Precedes v') {k : Key} {w : Version} (hg : v.Gone k w) : v'.Gone k w := by
  have hle := h.last_le
  have hgiven := hg.given
  refine ⟨by omega, fun d hd => ?_⟩
  rcases h.document k d hd with hd | ⟨hlow, -⟩
  · exact hg.absent d hd
  · rintro rfl
    omega

end View.Precedes

/-! ### One turn -/

theorem Move.precedes {v v' : View} {c : Command} {a : Except Fault LooseResult} (h : Move v c a v') :
    v.Precedes v' := by
  refine ⟨h.last_le, fun k d hd => ?_⟩
  rcases h.doc?_after hd with hd | ⟨hd, hlast⟩
  · exact .inl hd
  · exact .inr ⟨by omega, by omega⟩

namespace Turn

variable {view : σ → View} {t : Turn σ}

theorem IsMove.advances (h : t.IsMove view) : t.Advances view := by
  have hmove := h.move
  refine ⟨hmove.precedes, ?_, fun _ hd => hmove.obtained hd, ?_, ?_⟩
  · rintro ⟨hc, x, hx⟩
    obtain ⟨-, content, hstored⟩ := hmove.written hc hx
    refine ⟨_, ⟨⟨hc, x, hx⟩, content, hstored, fun hi => ?_⟩, Int.lt_succ _⟩
    obtain ⟨d, rfl, hd, -⟩ := hmove.answer_written hc hi hx
    rw [hstored] at hd
    cases hd
    exact hx
  · rintro k hk ⟨x, hx⟩
    rw [hk, show t.answer = .ok (.inl (.ok x)) from hx] at hmove
    generalize view t.after.world = v' at hmove ⊢
    cases hmove with
    | removed hd => exact if_pos rfl
    | failed hf => exact absurd rfl (hf x)
  · rintro k content w hc hw ⟨x, hx⟩
    rw [hc] at hmove
    exact (hmove.updated_inv hx hw).1

/-- A turn that fails gives nothing out. -/
theorem advances_of_failed (hp : (view t.before.world).Precedes (view t.after.world))
    (hf : ¬ t.Succeeds) : t.Advances view :=
  ⟨hp, fun hw => absurd hw.2 hf, fun _ hd => absurd ⟨_, hd⟩ hf, fun _ _ hs => absurd hs hf,
    fun _ _ _ _ _ hs => absurd hs hf⟩

theorem Advances.lt_of_issues (h : t.Advances view) {w : Version} (hw : t.Issues view w) :
    (view t.before.world).last < w.number := by
  obtain ⟨w', hw', hlt⟩ := h.issues hw.writes
  obtain ⟨content, hstored, -⟩ := hw.stored
  obtain ⟨content', hstored', -⟩ := hw'.stored
  rw [hstored] at hstored'
  cases hstored'
  exact hlt

end Turn

/-! ### Many turns -/

namespace Advancing

variable {view : σ → View} {s s' : Run σ} {ts us : List (Turn σ)}

theorem append_iff :
    Advancing view s (ts ++ us) s' ↔ ∃ r, Advancing view s ts r ∧ Advancing view r us s' := by
  induction ts generalizing s with
  | nil =>
    constructor
    · intro h; exact ⟨s, .nil s, h⟩
    · rintro ⟨r, h, h'⟩; cases h; exact h'
  | cons t ts ih =>
    constructor
    · intro h
      cases h with
      | cons ht hs =>
        obtain ⟨r, h, h'⟩ := ih.1 hs
        exact ⟨r, .cons ht h, h'⟩
    · rintro ⟨r, h, h'⟩
      cases h with
      | cons ht hs => exact .cons ht (ih.2 ⟨r, hs, h'⟩)

theorem precedes (h : Advancing view s ts s') : (view s.world).Precedes (view s'.world) := by
  induction h with
  | nil s => exact .refl _
  | cons ht hs ih => exact ht.precedes.trans ih

/-- A turn of the row begins with what the turns before it have left. -/
theorem last_le_before (h : Advancing view s ts s') :
    ∀ t ∈ ts, t.Advances view ∧ (view s.world).last ≤ (view t.before.world).last := by
  induction h with
  | nil s => intro t ht; cases ht
  | cons ht hs ih =>
    intro u hu
    rcases List.mem_cons.1 hu with rfl | hu
    · exact ⟨ht, Int.le_refl _⟩
    · obtain ⟨hadv, hle⟩ := ih u hu
      exact ⟨hadv, Int.le_trans ht.precedes.last_le hle⟩

/-- Versions rise from write to write. -/
theorem pairwise_issues (h : Advancing view s ts s') (h0 : 0 ≤ (view s.world).last)
    (hc : (view s.world).Counted) :
    ts.Pairwise fun t u => ∀ v w, t.Issues view v → u.Issues view w → v.number < w.number := by
  induction h with
  | nil s => exact .nil
  | cons ht hs ih =>
    have hafter := ht.precedes.counted h0 hc
    have h0' := Int.le_trans h0 ht.precedes.last_le
    refine .cons (fun u hu v w hv hw => ?_) (ih h0' hafter)
    -- what is stored is at most the highest version, and the next write goes beyond that
    obtain ⟨content, hstored, -⟩ := hv.stored
    have hbound : v.number ≤ _ := (hafter _ _ hstored).2
    obtain ⟨hadv, hle⟩ := hs.last_le_before u hu
    have := hadv.lt_of_issues hw
    omega

theorem neverReissued (h : Advancing view s ts s') (h0 : 0 ≤ (view s.world).last)
    (hc : (view s.world).Counted) : NeverReissued view ts := by
  refine ⟨fun t ht hw => ?_, h.pairwise_issues h0 hc, ?_⟩
  · obtain ⟨w, hissues, -⟩ := ((h.last_le_before t ht).1).issues hw
    exact ⟨w, hissues⟩
  · rintro ws xs ys zs t r u k d rfl rfl hobtained hr hremoved
    obtain ⟨_, hws, hrest⟩ := append_iff.1 h
    cases hrest with
    | cons ht hs =>
      obtain ⟨_, hxs, hrest⟩ := append_iff.1 hs
      cases hrest with
      | cons hradv hs =>
        obtain ⟨_, hys, hrest⟩ := append_iff.1 hs
        cases hrest with
        | cons hu hzs =>
          have hbefore := hws.precedes.counted h0 hc
          have h0' := Int.le_trans h0 hws.precedes.last_le
          obtain ⟨hpos, hle⟩ := ht.precedes.counted h0' hbefore _ _ (ht.obtained d hobtained)
          have hnone := hradv.removed _ hr hremoved
          -- the removal leaves no document, so from then on the version is gone
          have hgone : (view r.after.world).Gone t.command.key d.version := by
            refine ⟨?_, fun e he => ?_⟩
            · exact Int.le_trans hle (hxs.precedes.trans hradv.precedes).last_le
            · rw [hnone] at he
              cases he
          have hfinal := hys.precedes.gone hgone
          refine ⟨(hu.precedes.gone hfinal).absent, fun content hcommand hsucceeds => ?_⟩
          have hset : d.version.isSet = true := bne_iff_ne.2 (by omega)
          obtain ⟨e, he, hversion⟩ := hu.demanded _ _ _ hcommand hset hsucceeds
          exact hfinal.absent e he hversion

end Advancing

/-! ### Commands about the sequence -/

theorem Command.key_of_not_isFree {c : Command} (h : ¬ c.IsFree) : c.key = Session.sequenceKey :=
  Key.ext (Decidable.not_not.1 h)

/-- A sequence that is begun shows its first number. -/
theorem Keyspace.Shows.begun {ks : Keyspace} {bucket : String} {v : View} (h : ks.Shows bucket v) :
    Shows (ks.insert (bucket ++ ":" ++ Session.versionSequence) (.sequence 1)) bucket ⟨v.doc?, 1⟩ := by
  refine ⟨fun name => ?_, h.reserved, show (0 : Int) ≤ 1 by decide⟩
  rw [Table.find?_insert]
  by_cases hname : name = Session.versionSequence
  · rw [hname, if_pos rfl, View.entry?, if_pos rfl]
    rfl
  · rw [if_neg (qualified_ne hname), h.entries, View.entry?, View.entry?, if_neg hname, if_neg hname]

namespace Script

variable {ks : Keyspace} {r : Request}

/-- A write to the sequence itself begins it, and is refused then. -/
theorem write_begins (hfind : ks.find? r.sequence = none) (hr : r.document = r.sequence)
    (content : String) :
    write r content ks = .error .wrongKind (ks.insert r.sequence (.sequence 1)) := by
  have hnext : Server.next r.sequence ks = .ok 1 (ks.insert r.sequence (.sequence 1)) := by
    rw [Server.next_eq, hfind]
  have hput : ∀ d, Server.put r.document d (ks.insert r.sequence (.sequence 1)) =
      .error .wrongKind (ks.insert r.sequence (.sequence 1)) := by
    intro d
    rw [Server.put_eq, hr, Table.find?_insert, if_pos rfl]
  unfold write
  exact (bind_of_ok hnext).trans (bind_of_error (hput _))

/-- Where no sequence is begun, a request about it finds nothing, or begins it and is refused. -/
theorem run_unbegun (hfind : ks.find? r.sequence = none) (hr : r.document = r.sequence) :
    run r ks = .ok .null ks ∨
      run r ks = .error .wrongKind (ks.insert r.sequence (.sequence 1)) := by
  have hdocument : Server.document? r.document ks = .ok none ks := by
    rw [Server.document?_eq, hr, hfind]
  have hcontains : ks.contains r.document = false := by
    rw [Table.contains, hr, hfind, Option.isSome_none]
  have hholds : Server.holds r.document ks = .ok false ks := by
    rw [Server.holds_eq, hcontains]
  have hdelete : Server.delete r.document ks = .ok false ks := by
    rw [Server.delete_eq, hcontains, if_neg Bool.false_ne_true]
  unfold run
  cases hc : r.command with
  | get k => exact .inl (bind_of_ok hdocument)
  | create k content =>
    exact .inr ((bind_of_ok hholds).trans (bind_of_error (write_begins hfind hr content)))
  | update k content w => exact .inl (bind_of_ok hdocument)
  | remove k => exact .inl (bind_of_ok hdelete)
  | getCounter k => exact .inl (bind_of_ok hdocument)
  | increment k delta =>
    exact .inr ((bind_of_ok hdocument).trans (bind_of_error (write_begins hfind hr _)))

/-- Where the sequence is begun, a request about it is refused, or says that it is there; only a removal
goes through. -/
theorem run_begun {n : Int} (hfind : ks.find? r.sequence = some (.sequence n))
    (hr : r.document = r.sequence) :
    run r ks = .error .wrongKind ks ∨
      ((∃ k content, r.command = .create k content) ∧ run r ks = .ok (.list [.int 0]) ks) ∨
      ((∃ k, r.command = .remove k) ∧ run r ks = .ok (.int 1) (ks.erase r.sequence)) := by
  have hdocument : Server.document? r.document ks = .error .wrongKind ks := by
    rw [Server.document?_eq, hr, hfind]
  have hcontains : ks.contains r.document = true := by
    rw [Table.contains, hr, hfind, Option.isSome_some]
  have hholds : Server.holds r.document ks = .ok true ks := by
    rw [Server.holds_eq, hcontains]
  have hdelete : Server.delete r.document ks = .ok true (ks.erase r.sequence) := by
    rw [Server.delete_eq, hcontains, if_pos rfl, hr]
  unfold run
  cases hc : r.command with
  | get k => exact .inl (bind_of_error hdocument)
  | create k content => exact .inr (.inl ⟨⟨k, content, rfl⟩, bind_of_ok hholds⟩)
  | update k content w => exact .inl (bind_of_error hdocument)
  | remove k => exact .inr (.inr ⟨⟨k, rfl⟩, bind_of_ok hdelete⟩)
  | getCounter k => exact .inl (bind_of_error hdocument)
  | increment k delta => exact .inl (bind_of_error hdocument)

/-- A script leaves the highest version as it is, or has written and replies that it has. -/
theorem effect_last (v : View) (c : Command) :
    (effect v c).2.last = v.last ∨
      ((effect v c).2.last = v.last + 1 ∧ c.isWrite = true ∧
        ∃ x, (Delivery.reply (effect v c).1).outcome c = .ok (.inl (.ok x))) := by
  cases c with
  | get k | getCounter k | remove k =>
    simp only [effect]
    cases v.doc? k <;> exact .inl rfl
  | create k content =>
    simp only [effect]
    cases v.doc? k with
    | none => exact .inr ⟨rfl, rfl, _, Delivery.outcome_created ..⟩
    | some d => exact .inl rfl
  | update k content w =>
    simp only [effect]
    cases v.doc? k with
    | none => exact .inl rfl
    | some d =>
      simp only
      split
      · exact .inl rfl
      · exact .inr ⟨rfl, rfl, _, Delivery.outcome_updated ..⟩
  | increment k delta =>
    have hwriting : ∀ x : Rounded, ∃ y,
        (Delivery.reply (writingNumber v k x).1).outcome (.increment k delta) = .ok (.inl (.ok y)) :=
      fun x => ⟨_, Delivery.outcome_increased k delta x.natAbs_toWord_lt⟩
    simp only [effect]
    cases v.doc? k with
    | none => exact .inr ⟨rfl, rfl, hwriting _⟩
    | some d =>
      simp only
      split
      · exact .inr ⟨rfl, rfl, hwriting _⟩
      · exact .inl rfl

end Script

namespace Site

variable {bucket : String} {s : Run Site} {settings : Settings} {i : Nat} {c : Command} {v : View}

/-- What the server answers to a request that can be sent. -/
theorem answer_sent {r : Request} {ks : Keyspace} (ho : r.obstacle? = none) :
    ks.answer r =
      match Script.run r ks with
      | .ok v ks' => (.reply v, ks')
      | .error e ks' => (.raised (.foreign .driverResponse (some (.text e.message)) 0), ks') := by
  cases hrun : Script.run r ks with
  | ok v ks' => simp only [Keyspace.answer, ho, hrun]
  | error e ks' => simp only [Keyspace.answer, ho, hrun]

/-- A command about the sequence fails, unless it removes it, and at most begins it. -/
theorem turn_reserved (h : s.world.Connected bucket) (hv : s.world.server.Shows bucket v)
    (hc : ¬ c.IsFree) (hkept : ¬ ((client settings i).backend.turn c s).DropsSequence) :
    ¬ ((client settings i).backend.turn c s).Succeeds ∧
      ∃ v', ((client settings i).backend.turn c s).after.world.server.Shows bucket v' ∧
        (v' = v ∨ (v.last = 0 ∧ v' = ⟨v.doc?, 1⟩)) := by
  cases ho : c.obstacle? with
  | some p =>
    obtain ⟨hanswer, hworld⟩ := @turn_unsent bucket s settings i c h p ho
    refine ⟨?_, v, hworld ▸ hv, .inl rfl⟩
    rintro ⟨x, hx⟩
    rw [Turn.Answers, hanswer] at hx
    cases hx
  | none =>
    obtain ⟨session, rfl, hanswer, hworld⟩ := @turn_eq bucket s settings i c h
    have hkey := Command.key_of_not_isFree hc
    have hname : (session.request c).document = (session.request c).sequence := by
      show session.qualified c.key.value = _
      rw [hkey]
      rfl
    have hfind : s.world.server.find? (session.request c).sequence = _ := hv.find?_sequence
    have hsent := @answer_sent (session.request c) s.world.server
      ((obstacle?_request session c).trans ho)
    have hstep : ∀ {d : Delivery} {ks' : Keyspace} {v' : View},
        s.world.server.answer (session.request c) = (d, ks') →
        (∀ x, d.outcome c ≠ .ok (.inl (.ok x))) → ks'.Shows session.bucket v' →
        (v' = v ∨ (v.last = 0 ∧ v' = ⟨v.doc?, 1⟩)) →
        ¬ ((client settings i).backend.turn c s).Succeeds ∧
          ∃ v', ((client settings i).backend.turn c s).after.world.server.Shows session.bucket v' ∧
            (v' = v ∨ (v.last = 0 ∧ v' = ⟨v.doc?, 1⟩)) := by
      intro d ks' v' hans hno hshows hv'
      refine ⟨?_, v', ?_, hv'⟩
      · rintro ⟨x, hx⟩
        rw [Turn.Answers, hanswer, hans] at hx
        exact hno x hx
      · rw [hworld, hans]
        exact hshows
    by_cases hlast : v.last = 0
    · rw [if_pos hlast] at hfind
      rcases Script.run_unbegun hfind hname with hrun | hrun
      · rw [hrun] at hsent
        exact hstep hsent nofun hv (.inl rfl)
      · rw [hrun] at hsent
        exact hstep hsent nofun hv.begun (.inr ⟨hlast, rfl⟩)
    · rw [if_neg hlast] at hfind
      rcases Script.run_begun hfind hname with hrun | ⟨⟨k, content, hc'⟩, hrun⟩ | ⟨⟨k, hc'⟩, hrun⟩
      · rw [hrun] at hsent
        exact hstep hsent nofun hv (.inl rfl)
      · rw [hrun] at hsent
        have hcreate : c = .create k content := hc'
        refine hstep hsent (fun x hx => ?_) hv (.inl rfl)
        simp only [hcreate, Delivery.outcome_present] at hx
        cases hx
      · rw [hrun] at hsent
        have hremove : c = .remove k := hc'
        rw [hremove] at hkey
        refine absurd ⟨?_, .null, ?_⟩ hkept
        · rw [Backend.command_turn, hremove]
          exact congrArg Command.remove hkey
        · rw [Turn.Answers, hanswer, hsent, hremove]
          rfl

/-- A command about a document leaves the highest version, or is a write and moves it up by one. -/
theorem turn_free (h : s.world.Connected bucket) (hv : s.world.server.Shows bucket v) (hc : c.IsFree) :
    ∃ v', ((client settings i).backend.turn c s).after.world.server.Shows bucket v' ∧
      (v'.last = v.last ∨
        (v'.last = v.last + 1 ∧ ((client settings i).backend.turn c s).Writes)) := by
  cases ho : c.obstacle? with
  | some p =>
    obtain ⟨-, hworld⟩ := @turn_unsent bucket s settings i c h p ho
    exact ⟨v, hworld ▸ hv, .inl rfl⟩
  | none =>
    obtain ⟨hanswer, hshows, -⟩ := @turn_sent bucket s settings i c h v hv hc ho
    refine ⟨_, hshows, ?_⟩
    rcases Script.effect_last v c with hlast | ⟨hlast, hwrite, x, hx⟩
    · exact .inl hlast
    · refine .inr ⟨hlast, ?_, x, ?_⟩
      · rw [Backend.command_turn]
        exact hwrite
      · rw [Turn.Answers, hanswer]
        exact hx

/-- Where the sequence is at most one ahead of the writes made, and those with this one are fewer than
`2 ^ 53`, a turn advances, and leaves the sequence at most one ahead. -/
theorem turn_advances {n : Nat} (h : s.world.Connected bucket) (hv : s.world.server.Shows bucket v)
    (hcounted : v.Counted) (hn : v.last ≤ n + 1)
    (hkept : ¬ ((client settings i).backend.turn c s).DropsSequence)
    (hroom : n + (if ((client settings i).backend.turn c s).Writes then 1 else 0) <
      2 ^ Rounded.precision) :
    ((client settings i).backend.turn c s).Advances (fun w => w.server.view bucket) ∧
      ∃ v', ((client settings i).backend.turn c s).after.world.server.Shows bucket v' ∧ v'.Counted ∧
        v'.last ≤ (n + (if ((client settings i).backend.turn c s).Writes then 1 else 0) : Nat) + 1 := by
  have h0 := hv.nonneg
  by_cases hc : c.IsFree
  · obtain ⟨v', hv', hlast⟩ := @turn_free bucket s settings i c v h hv hc
    have hshort : v'.last.natAbs ≤ 2 ^ Rounded.precision ∧
        v'.last ≤ (n + (if ((client settings i).backend.turn c s).Writes then 1 else 0) : Nat) + 1 := by
      rcases hlast with hlast | ⟨hlast, hwrites⟩
      · split at hroom <;> omega
      · rw [if_pos hwrites] at hroom ⊢
        omega
    obtain ⟨hmove, hcounted'⟩ := @turn_isMove bucket s settings i c v h hv hcounted hc
      (by rw [hv'.view_eq]; exact hshort.1)
    rw [hv'.view_eq] at hcounted'
    exact ⟨hmove.advances, v', hv', hcounted', hshort.2⟩
  · obtain ⟨hfails, v', hv', hsame⟩ := @turn_reserved bucket s settings i c v h hv hc hkept
    have hnot : ¬ ((client settings i).backend.turn c s).Writes := fun hw => hfails hw.2
    have hprecedes : v.Precedes v' := by
      rcases hsame with rfl | ⟨hlast, rfl⟩
      · exact .refl _
      · exact ⟨by rw [hlast]; exact Int.one_nonneg, fun _ _ hd => .inl hd⟩
    refine ⟨Turn.advances_of_failed ?_ hfails, v', hv', hprecedes.counted h0 hcounted, ?_⟩
    · rw [Backend.before_turn, hv.view_eq, hv'.view_eq]
      exact hprecedes
    · rw [if_neg hnot]
      rcases hsame with rfl | ⟨-, rfl⟩
      · exact hn
      · show (1 : Int) ≤ _
        omega

/-- Clients of one bucket advance, as long as none removes the sequence. -/
theorem advancing {settings : Nat → Settings} {cs : List (Nat × Command)} {n : Nat}
    (h : s.world.Connected bucket) (hv : s.world.server.Shows bucket v) (hcounted : v.Counted)
    (hn : v.last ≤ n + 1) (hkept : ∀ t ∈ turns (commands settings cs) s, ¬ t.DropsSequence)
    (hroom : n + (turns (commands settings cs) s).countP (fun t => t.Writes) <
      2 ^ Rounded.precision) :
    Advancing (fun w => w.server.view bucket) s (turns (commands settings cs) s)
      (afterTurns (commands settings cs) s) := by
  induction cs generalizing s v n with
  | nil => exact .nil s
  | cons ic cs ih =>
    obtain ⟨i, c⟩ := ic
    have hturns : turns (commands settings ((i, c) :: cs)) s =
        (client (settings i) i).backend.turn c s ::
          turns (commands settings cs) ((client (settings i) i).backend.turn c s).after := rfl
    rw [hturns] at hkept hroom ⊢
    rw [List.countP_cons] at hroom
    simp only [decide_eq_true_eq] at hroom
    obtain ⟨hadv, v', hv', hcounted', hn'⟩ := @turn_advances bucket s (settings i) i c v n h hv hcounted
      hn (hkept _ (List.mem_cons_self ..)) (by omega)
    have htail := ih (@connected_turn bucket s (settings i) i c h) hv' hcounted' hn'
      (fun t ht => hkept t (List.mem_cons_of_mem _ ht)) (by omega)
    have hcons := Advancing.cons hadv htail
    rw [Backend.before_turn] at hcons
    exact hcons

end Site

/-! ## Top theorems -/

/-- Whatever commands any number of clients carry out on a bucket that was empty, the reserved key's
among them: with fewer than `2 ^ 53` writes no version is given out twice, as long as no client removes
the sequence of versions. -/
theorem versions_rise_while_sequence_kept (settings : Nat → Settings) (bucket : String)
    (cs : List (Nat × Command)) (s : Run Site) (hconn : s.world.Connected bucket)
    (hempty : ∀ name, s.world.server.find? (bucket ++ ":" ++ name) = none)
    (hwrites : (turns (Site.commands settings cs) s).countP (fun t => t.Writes) <
      2 ^ Rounded.precision)
    (hkept : ∀ t ∈ turns (Site.commands settings cs) s, ¬ t.DropsSequence) :
    NeverReissued (fun w => w.server.view bucket) (turns (Site.commands settings cs) s) := by
  have hshows := Keyspace.shows_empty hempty
  have hcounted : View.Counted ⟨fun _ => none, 0⟩ := fun k d hd => by cases hd
  have hadv := Site.advancing (n := 0) hconn hshows hcounted (by decide) hkept (by omega)
  refine hadv.neverReissued ?_ ?_
  · exact Int.le_of_eq (congrArg View.last hshows.view_eq).symm
  · rw [hshows.view_eq]
    exact hcounted

/-- The site of a client on a new bucket. -/
def newSite : Run Site := Run.start (Site.opened "default" .empty)

/-- A document is created, removed and created again, and in between its client does `c`; at the end the
client demands the version that the removed document had. -/
def recreating (c : Command) : List (Nat × Command) := [
  (0, .create .a "x"), (0, .remove .a), (0, c),
  (0, .create .a "y"), (0, .update .a "z" ⟨1⟩)]

/-- The first document of a bucket gets the version 1. -/
theorem created_first : ((Site.client Settings.default 0).backend.turn (.create .a "x")
    newSite).Answers (Document.toValue ⟨"x", ⟨1⟩⟩) :=
  Delivery.outcome_created .a "x" 1

/-- Where the client only counts in the sequence in between, the version is demanded in vain. -/
theorem removed_version_refused :
    (newSite.world.Connected "default" ∧
        (∀ name, newSite.world.server.find? ("default" ++ ":" ++ name) = none)) ∧
      ∃ t r x u v, turns (Site.commands (fun _ => Settings.default)
          (recreating (.increment Session.sequenceKey 1))) newSite = [t, r, x, u, v] ∧
        t.Answers (Document.toValue ⟨"x", ⟨1⟩⟩) ∧ r.Succeeds ∧ u.Succeeds ∧ ¬ v.Succeeds := by
  have hconn : newSite.world.Connected "default" := fun i => ⟨⟨0, "default"⟩, rfl, rfl⟩
  have hnever := versions_rise_while_sequence_kept (fun _ => Settings.default) "default"
    (recreating (.increment Session.sequenceKey 1)) newSite hconn (fun _ => rfl) (by decide +kernel)
    (by decide +kernel)
  refine ⟨⟨hconn, fun _ => rfl⟩, _, _, _, _, _, rfl, created_first, ?_, ?_, ?_⟩
  · decide +kernel
  · decide +kernel
  · exact (@NeverReissued.stale _ _ _ hnever [] [] [_, _] [] _ _ _ _ _ rfl rfl created_first
      (Backend.command_turn ..) (by decide +kernel)).2 "z" (Backend.command_turn ..)

/-- Where the client removes the sequence in between, the version is given out again, and the document
that has it now is overwritten. -/
theorem removed_sequence_reissues :
    newSite.world.Connected "default" ∧
      (∀ name, newSite.world.server.find? ("default" ++ ":" ++ name) = none) ∧
      (turns (Site.commands (fun _ => Settings.default) (recreating (.remove Session.sequenceKey)))
        newSite).countP (fun t => t.Writes) < 2 ^ Rounded.precision ∧
      ¬ NeverReissued (fun w => w.server.view "default") (turns (Site.commands
        (fun _ => Settings.default) (recreating (.remove Session.sequenceKey))) newSite) := by
  refine ⟨fun i => ⟨⟨0, "default"⟩, rfl, rfl⟩, fun _ => rfl, by decide +kernel, fun hnever => ?_⟩
  exact (@NeverReissued.stale _ _ _ hnever [] [] [_, _] [] _ _ _ _ _ rfl rfl created_first
    (Backend.command_turn ..) (by decide +kernel)).2 "z" (Backend.command_turn ..) (by decide +kernel)

end CasStore
