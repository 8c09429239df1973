import CasStore.Proofs.Clients

/-!
# Compare and swap

A client obtains a document, and later demands its version in an update.  Whatever other clients have
done meanwhile: where the update succeeds, nobody has written or removed the document in between.  So no
update is lost, and of several updates that demand one version at most one succeeds.

    an update that succeeds replaces what was obtained               (CasSafe.replaces)
    no version is replaced twice                                     (CasSafe.once)
    a version conflict changes nothing                               (CasSafe.unchanged)
-/

namespace CasStore

variable {σ : Type}

/-! ## Algorithm -/

/-- The turn is an update that demanded version `w` of the document under `k`, and succeeded. -/
def Turn.Replaces (t : Turn σ) (k : Key) (w : Version) : Prop :=
  (∃ content, t.command = .update k content w) ∧ t.Succeeds

/-- In a row of turns no update that demands a version overwrites what its client has not seen. -/
structure CasSafe (view : σ → View) (ts : List (Turn σ)) : Prop where
  /-- A document obtained by `t` is the very one that a later update `u` replaces. -/
  replaces : ∀ {xs ys zs : List (Turn σ)} {t u : Turn σ} {k : Key} {d : Document} {content : String},
    ts = xs ++ t :: (ys ++ u :: zs) → t.command.key = k → t.Answers d.toValue → d.version.isSet = true →
    u.command = .update k content d.version → u.Succeeds →
    (∀ r ∈ ys, ¬ r.Changes k) ∧ (view u.before.world).doc? k = some d ∧
      ∃ e, (view u.after.world).doc? k = some e ∧ e.content = content ∧ e.version ≠ d.version
  /-- Of the updates that demand one version at most one succeeds. -/
  once : ∀ {k : Key} {w : Version}, w.isSet = true →
    ts.Pairwise fun t u => ¬ (t.Replaces k w ∧ u.Replaces k w)
  /-- A version conflict leaves everything as it is. -/
  unchanged : ∀ t ∈ ts, t.Conflicts → t.after.world = t.before.world

/-! ## Lemmas -/

/-- An update cannot demand what an earlier one has replaced. -/
theorem CasSafe.not_replaced_again {view : σ → View} {xs ys zs : List (Turn σ)} {t u : Turn σ} {k : Key}
    {w : Version} (h : CasSafe view (xs ++ t :: (ys ++ u :: zs))) (hw : w.isSet = true)
    (ht : t.Replaces k w) : ¬ u.Replaces k w := by
  have hrest := (List.pairwise_append.1 (h.once (k := k) hw)).2.1
  have hmem : u ∈ ys ++ u :: zs := List.mem_append_right _ (List.mem_cons_self ..)
  exact fun hu => (List.pairwise_cons.1 hrest).1 u hmem ⟨ht, hu⟩

/-- A version that has been replaced is gone. -/
theorem Move.gone_of_updated {v v' : View} {k : Key} {content : String} {w : Version}
    {a : Except Fault LooseResult} (h : Move v (.update k content w) a v') (hb : v.Bounded) {x : Value}
    (ha : a = .ok (.inl (.ok x))) (hw : w.isSet = true) : v'.Gone k w := by
  obtain ⟨⟨d, hd, hdw⟩, hstored, hlast⟩ := h.updated_inv ha hw
  have hle := hb k d hd
  rw [hdw] at hle
  refine ⟨by omega, fun e he => ?_⟩
  rw [hstored, Option.some.injEq] at he
  subst he
  intro heq
  have : v.last + 1 = w.number := congrArg Version.number heq
  omega

namespace Moves

variable {view : σ → View} {s s' : Run σ} {ts : List (Turn σ)}

/-- No version that is gone is replaced. -/
theorem not_replaces_of_gone (h : Moves view s ts s') {k : Key} {w : Version} (hw : w.isSet = true)
    (hg : (view s.world).Gone k w) : ∀ t ∈ ts, ¬ t.Replaces k w := by
  induction h with
  | nil s => intro t ht; cases ht
  | cons ht hs ih =>
    intro u hu
    rcases List.mem_cons.1 hu with rfl | hu
    · rintro ⟨⟨content, hc⟩, x, hx⟩
      have hmove := ht.move
      rw [hc] at hmove
      obtain ⟨⟨d, hd, hdw⟩, -, -⟩ := hmove.updated_inv hx hw
      exact hg.absent d hd hdw
    · exact ih (ht.move.gone hg) u hu

theorem pairwise_replaces (h : Moves view s ts s') (hb : (view s.world).Bounded) {k : Key} {w : Version}
    (hw : w.isSet = true) : ts.Pairwise fun t u => ¬ (t.Replaces k w ∧ u.Replaces k w) := by
  induction h with
  | nil s => exact .nil
  | cons ht hs ih =>
    refine .cons (fun u hu => ?_) (ih (ht.move.bounded hb))
    rintro ⟨⟨⟨content, hc⟩, x, hx⟩, hreplaces⟩
    have hmove := ht.move
    rw [hc] at hmove
    -- the version goes with the first update that demands it
    exact hs.not_replaces_of_gone hw (hmove.gone_of_updated hb hx hw) u hu hreplaces

/-- Moves from a bounded view are safe. -/
theorem casSafe (h : Moves view s ts s') (hb : (view s.world).Bounded) : CasSafe view ts := by
  refine ⟨?_, h.pairwise_replaces hb, fun t ht hc => ?_⟩
  · rintro xs ys zs t u k d content rfl rfl hobtained hset hc ⟨x, hx⟩
    obtain ⟨r, hxs, hrest⟩ := append_iff.1 h
    cases hrest with
    | cons ht hs =>
      obtain ⟨r, hys, hrest⟩ := append_iff.1 hs
      cases hrest with
      | cons hu hzs =>
        have hafter := ht.move.bounded (hxs.bounded hb)
        have hd := ht.move.obtained hobtained
        have hmove := hu.move
        rw [hc] at hmove
        obtain ⟨⟨e, he, hversion⟩, hstored, hlast⟩ := hmove.updated_inv hx hset
        -- either nothing has changed since the document was obtained, or its version is gone
        rcases hys.kept_or_gone hd (hafter _ d hd) with ⟨hkept, hnot⟩ | hgone
        · refine ⟨hnot, hkept, _, hstored, rfl, fun heq => ?_⟩
          have hbefore := hys.bounded hafter _ d hkept
          have : (view u.before.world).last + 1 = d.version.number := congrArg Version.number heq
          omega
        · exact absurd hversion (hgone.absent e he)
  · exact (h.isMove t ht).unchanged (Turn.not_succeeds_of_conflicts hc)

end Moves

/-! ## Top theorems -/

/-- Compare and swap is safe, however the commands of any number of clients interleave: on one store in
memory, whatever it was started from, and on one bucket of a server, as long as versions are short. -/
theorem compareAndSwap_safe :
    (∀ (slot : Slot σ Store), slot.Lawful → ∀ (m : StartMap) (cs : List Command) (s : Run σ),
      slot.get s.world = Store.ofStart m →
      CasSafe (fun w => (slot.get w).view) (turns (Store.commands slot cs) s)) ∧
    ∀ (settings : Nat → Settings) (bucket : String) (cs : List (Nat × Command)) (s : Run Site),
      s.world.Connected bucket →
      (∀ name, s.world.server.find? (bucket ++ ":" ++ name) = none) →
      (∀ ic ∈ cs, ic.2.IsFree) →
      ((afterTurns (Site.commands settings cs) s).world.server.view bucket).last.natAbs <
        2 ^ Rounded.precision →
      CasSafe (fun w => w.server.view bucket) (turns (Site.commands settings cs) s) := by
  refine ⟨fun slot hslot m cs s hs => ?_, fun settings bucket cs s hconn hempty hfree hlast => ?_⟩
  · refine (Store.moves hslot cs s).casSafe ?_
    rw [hs]
    exact Store.bounded_ofStart m
  · have hshows := Keyspace.shows_empty hempty
    have hcounted : View.Counted ⟨fun _ => none, 0⟩ := fun k d hd => by cases hd
    refine (Site.moves hconn hshows hcounted hfree hlast).casSafe ?_
    rw [hshows.view_eq]
    intro k d hd
    cases hd

/-- A document with a negative version, and a highest version that is out of date. -/
def raceStart : StartMap where
  docs := .ofList [(.a, ⟨"x", ⟨-3⟩⟩)]
  lastVersion := some (-7)

/-- Two updates that demand one version. -/
def race (k : Key) (w : Version) : List Command := [.update k "y" w, .update k "z" w]

/-- The site of a race for a new bucket. -/
def raceSite : Run Site := Run.start (Site.opened "default" .empty)

/-- Two clients of a server who both know the first version of a document. -/
def clientRace : List (Nat × Command) :=
  [(0, .create .a "x"), (1, .get .a)] ++
    [1, 0].zip (race .a ⟨1⟩)

/-- Of two updates that demand one version the first succeeds, and so the second does not. -/
theorem race_won_once :
    (raceSite.world.Connected "default" ∧ (∀ ic ∈ clientRace, ic.2.IsFree)) ∧
      (∃ t u, turns (Store.commands Slot.whole (race ⟨"a", by decide⟩ ⟨-3⟩))
          (Run.start (Store.ofStart raceStart)) = [t, u] ∧
        t.Replaces ⟨"a", by decide⟩ ⟨-3⟩ ∧ ¬ u.Replaces ⟨"a", by decide⟩ ⟨-3⟩) ∧
      ∃ o x t u, turns (Site.commands (fun _ => Settings.default) clientRace) raceSite = [o, x, t, u] ∧
        x.Succeeds ∧ t.Replaces ⟨"a", by decide⟩ ⟨1⟩ ∧ ¬ u.Replaces ⟨"a", by decide⟩ ⟨1⟩ := by
  have hconn : raceSite.world.Connected "default" := fun i => ⟨⟨0, "default"⟩, rfl, rfl⟩
  have hfree : ∀ ic ∈ clientRace, ic.2.IsFree := by decide
  have hlast : ((afterTurns (Site.commands (fun _ => Settings.default) clientRace)
      raceSite).world.server.view "default").last.natAbs < 2 ^ Rounded.precision := by decide +kernel
  have hmemory := (@compareAndSwap_safe Store).1 Slot.whole Slot.lawful_whole raceStart
    (race ⟨"a", by decide⟩ ⟨-3⟩) (Run.start (Store.ofStart raceStart)) rfl
  have hsite := (@compareAndSwap_safe Store).2 (fun _ => Settings.default) "default" clientRace raceSite
    hconn (fun _ => rfl) hfree hlast
  have hagain := @CasSafe.not_replaced_again Store _ [] [] [] _ _ ⟨"a", by decide⟩ ⟨-3⟩ hmemory rfl
  have hagain' := @CasSafe.not_replaced_again Site _ [_, _] [] [] _ _ ⟨"a", by decide⟩ ⟨1⟩ hsite rfl
  refine ⟨⟨hconn, hfree⟩, ⟨_, _, rfl, ?_⟩, ⟨_, _, _, _, rfl, by decide +kernel, ?_⟩⟩
  · refine (fun hwon => ⟨hwon, hagain hwon⟩) ?_
    exact ⟨⟨"y", Backend.command_turn ..⟩, by decide +kernel⟩
  · refine (fun hwon => ⟨hwon, hagain' hwon⟩) ?_
    exact ⟨⟨"y", Backend.command_turn ..⟩, by decide +kernel⟩

end CasStore
