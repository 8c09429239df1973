import CasStore.Proofs.Effects
import CasStore.Proofs.Memory

/-!
# Versions over many sessions

A store in memory is used by commands and by whole programs, and at any time a session may end and a new
one go on from its snapshot.  A hand-over changes nothing, and a program comes to what the commands it
dispatches come to, so all sessions together are one row of commands.  Over that no version is given out
twice: what a write is given is higher than every version that any document has had at any time.

    a program leaves the store as its commands leave it              (ByCommands.execute)
    sessions are a row of commands                                   (exists_history)
    versions are never given out again                               (versions_never_reissued)
-/

namespace CasStore

variable {σ : Type}

/-! ## Algorithm -/

/-- What happens to a store in memory: a command, the end of a session and the begin of the next from
its snapshot, or a program that is run on the snapshot and leaves one for the next. -/
inductive SessionAct (σ : Type)
  | command (c : Command)
  | handOver
  | program (p : Program σ)

namespace SessionAct

/-- The run after an act on the store in `slot`. -/
def after (slot : Slot σ Store) : SessionAct σ → Run σ → Run σ
  | .command c, s => ((Store.backend slot).turn c s).after
  | .handOver, s => { s with world := slot.set (Store.ofStart (slot.get s.world).snapshot) s.world }
  | .program p, s => Reply.left (Store.executeWithState slot p (slot.get s.world).snapshot s)

/-- Programs reach the store through their commands only. -/
def Spares (slot : Slot σ Store) : SessionAct σ → Prop
  | .program p => Program.Within (fun w w' => slot.get w' = slot.get w) p
  | _ => True

end SessionAct

/-- The run after any number of acts. -/
def sessions (slot : Slot σ Store) (acts : List (SessionAct σ)) (s : Run σ) : Run σ :=
  acts.foldl (fun s a => a.after slot s) s

/-- The store after any number of commands. -/
def Store.afterCommands (s : Store) (cs : List Command) : Store := cs.foldl Store.afterCommand s

/-- How the memory backend's commands are noted. -/
def noted (c : Command) : Fields := ("backend", .text "memory") :: c.summary

/-- The commands that an act consists in: a program's are those that it is noted to have dispatched. -/
def SessionAct.Dispatches (slot : Slot σ Store) (s : Run σ) : SessionAct σ → List Command → Prop
  | .command c, cs => cs = [c]
  | .handOver, cs => cs = []
  | .program p, cs =>
    ((SessionAct.program p).after slot s).journal.commands = s.journal.commands ++ cs.map noted

/-- The commands that acts consist in, all in one row.  Every act leaves the store as its commands do. -/
inductive History (slot : Slot σ Store) : List (SessionAct σ) → Run σ → List Command → Prop
  | nil (s) : History slot [] s []
  | cons {a acts s cs cs'} (hcs : a.Dispatches slot s cs)
      (hstore : slot.get (a.after slot s).world = (slot.get s.world).afterCommands cs)
      (hrest : History slot acts (a.after slot s) cs') : History slot (a :: acts) s (cs ++ cs')

/-- At some time in a row of commands some document has had the version. -/
def Seen (start : Store) (cs : List Command) (w : Version) : Prop :=
  ∃ earlier later k d, cs = earlier ++ later ∧
    (start.afterCommands earlier).docs.find? k = some d ∧ d.version = w

/-- The highest version given out is at least 0, never sinks, and is at least every version that any
document has had. -/
structure HighWater (start : Store) (cs : List Command) : Prop where
  nonneg : 0 ≤ (start.afterCommands cs).lastVersion
  rises : ∀ earlier later, cs = earlier ++ later →
    (start.afterCommands earlier).lastVersion ≤ (start.afterCommands cs).lastVersion
  above : ∀ w, Seen start cs w → w.number ≤ (start.afterCommands cs).lastVersion

/-- What a command does about versions after a row of commands: a successful write stores, and answers
with unless it is an increment, a version that is set and higher than every one before, and nothing
else gives a version out. -/
structure IssuesFresh (slot : Slot σ Store) (start : Store) (cs : List Command) (c : Command) : Prop where
  written : ∀ r : Run σ, slot.get r.world = start.afterCommands cs → c.isWrite = true →
    ((Store.backend slot).turn c r).Succeeds →
    ∃ d, (slot.get ((Store.backend slot).turn c r).after.world).docs.find? c.key = some d ∧
      d.version.isSet = true ∧ (start.afterCommands cs).lastVersion < d.version.number ∧
      (∀ w, Seen start cs w → w.number < d.version.number) ∧
      ((∀ k i, c ≠ .increment k i) → ((Store.backend slot).turn c r).Answers d.toValue)
  otherwise : ∀ r : Run σ, slot.get r.world = start.afterCommands cs →
    ¬ (c.isWrite = true ∧ ((Store.backend slot).turn c r).Succeeds) →
    (slot.get ((Store.backend slot).turn c r).after.world).lastVersion =
        (start.afterCommands cs).lastVersion ∧
      ∀ k d, (slot.get ((Store.backend slot).turn c r).after.world).docs.find? k = some d →
        (start.afterCommands cs).docs.find? k = some d

/-- The second run has come from the first by commands, those that have been noted. -/
def ByCommands (slot : Slot σ Store) (s t : Run σ) : Prop :=
  ∃ cs : List Command, slot.get t.world = (slot.get s.world).afterCommands cs ∧
    t.journal.commands = s.journal.commands ++ cs.map noted

/-! ## Lemmas -/

/-! ### Programs are commands -/

theorem Store.afterCommands_append (s : Store) (cs cs' : List Command) :
    s.afterCommands (cs ++ cs') = (s.afterCommands cs).afterCommands cs' :=
  List.foldl_append

namespace ByCommands

variable {slot : Slot σ Store}

theorem trans {s t u : Run σ} (h : ByCommands slot s t) (h' : ByCommands slot t u) :
    ByCommands slot s u := by
  obtain ⟨cs, hstore, hnoted⟩ := h
  obtain ⟨cs', hstore', hnoted'⟩ := h'
  refine ⟨cs ++ cs', ?_, ?_⟩
  · rw [hstore', hstore, Store.afterCommands_append]
  · rw [hnoted', hnoted, List.map_append, List.append_assoc]

theorem of_eq {s t : Run σ} (hworld : slot.get t.world = slot.get s.world)
    (hnoted : t.journal.commands = s.journal.commands) : ByCommands slot s t :=
  ⟨[], hworld, by rw [hnoted, List.map_nil, List.append_nil]⟩

theorem journal_perform (c : Command) (s : Run σ) :
    (Reply.left (Store.perform slot c s)).journal = s.journal := by
  unfold Store.perform
  split
  · rfl
  · split <;> rfl

theorem isCommand_noted (c : Command) (level : Level) (bound : Fields) :
    Event.isCommand ⟨"interpreter.command", level, noted c, bound⟩ = true := by
  unfold Event.isCommand noted Command.summary
  rfl

theorem get_perform (hslot : slot.Lawful) (c : Command) (s : Run σ) :
    slot.get (Reply.left (Store.perform slot c s)).world = (slot.get s.world).afterCommand c := by
  rw [← Store.get_turn hslot c s]
  unfold Backend.turn
  simp only [Store.backend]
  cases Store.perform slot c s <;> rfl

/-- Dispatching a command notes it and carries it out. -/
theorem dispatch (hslot : slot.Lawful) (c : Command) :
    Keeps (ByCommands slot) ((Store.backend slot).dispatch c) := by
  refine keeps_dispatch trans (fun hworld => of_eq (by rw [hworld])) fun s =>
    ⟨[c], get_perform hslot c _, ?_⟩
  show (Reply.left (Store.perform slot c ((Store.backend slot).dispatched c s))).journal.commands = _
  rw [journal_perform]
  show (s.journal.note "interpreter.command" .debug (noted c)).commands = _
  rw [Journal.commands_note, isCommand_noted]
  rfl

theorem follows (hslot : slot.Lawful) :
    Follows (ByCommands slot) (fun w w' => slot.get w' = slot.get w) (Store.backend slot) where
  trans := trans
  quiet hworld hnoted := of_eq (by rw [hworld]) hnoted
  world _ _ h := of_eq h rfl
  connected _ := of_eq rfl rfl
  dispatch := dispatch hslot

/-- A program leaves the store as the commands that it dispatches leave it. -/
theorem execute (hslot : slot.Lawful) {p : Program σ}
    (hp : Program.Within (fun w w' => slot.get w' = slot.get w) p) :
    Keeps (ByCommands slot) (p.execute (Store.backend slot)) :=
  keeps_execute (follows hslot) hp

/-- A program run on a start map is run on the store that goes on from the map. -/
theorem executeWithState_eq (p : Program σ) (m : StartMap) (s : Run σ) :
    Store.executeWithState slot p m s =
      match p.execute (Store.backend slot)
        { s with world := slot.set (Store.ofStart m) s.world } with
      | .ok r t => .ok (r, (slot.get t.world).snapshot) t
      | .error e t => .error e t := by
  show EStateM.bind _ _ { s with world := slot.set (Store.ofStart m) s.world } = _
  unfold EStateM.bind
  cases p.execute (Store.backend slot) { s with world := slot.set (Store.ofStart m) s.world } <;> rfl

/-- The map that a program answers with is the snapshot of what it leaves. -/
theorem snapshot_of_executeWithState {p : Program σ} {m m' : StartMap} {s t : Run σ} {r : LooseResult}
    (h : Store.executeWithState slot p m s = .ok (r, m') t) : m' = (slot.get t.world).snapshot := by
  rw [executeWithState_eq] at h
  split at h
  · cases h; rfl
  · cases h

/-- A program run on a start map leaves what its commands leave of it. -/
theorem executeWithState (hslot : slot.Lawful) {p : Program σ}
    (hp : Program.Within (fun w w' => slot.get w' = slot.get w) p) (m : StartMap) (s : Run σ) :
    ∃ cs : List Command,
      slot.get (Reply.left (Store.executeWithState slot p m s)).world =
        (Store.ofStart m).afterCommands cs ∧
      (Reply.left (Store.executeWithState slot p m s)).journal.commands =
        s.journal.commands ++ cs.map noted := by
  let begun : Run σ := { s with world := slot.set (Store.ofStart m) s.world }
  have hstore : slot.get begun.world = Store.ofStart m := hslot ..
  obtain ⟨cs, hcs, hnoted⟩ := execute hslot hp begun
  rw [hstore] at hcs
  rw [executeWithState_eq]
  cases h : p.execute (Store.backend slot) begun with
  | ok r t => rw [h] at hcs hnoted; exact ⟨cs, hcs, hnoted⟩
  | error e t => rw [h] at hcs hnoted; exact ⟨cs, hcs, hnoted⟩

end ByCommands

/-! ### Sessions -/

/-- Every stored version is at most the highest given out, and that is not negative. -/
structure Store.Sound (s : Store) : Prop where
  bounded : s.view.Bounded
  nonneg : 0 ≤ s.lastVersion

namespace Store

theorem sound_ofStart {m : StartMap} (h : ∀ v ∈ m.lastVersion, 0 ≤ v) : (ofStart m).Sound :=
  ⟨bounded_ofStart m, nonneg_ofStart h⟩

theorem le_afterCommand (s : Store) (c : Command) :
    s.lastVersion ≤ (s.afterCommand c).lastVersion :=
  (s.answered_move c).last_le

theorem Sound.afterCommand {s : Store} (hs : s.Sound) (c : Command) : (s.afterCommand c).Sound := by
  have h := s.answered_move c
  exact ⟨h.bounded hs.bounded, Int.le_trans hs.nonneg h.last_le⟩

theorem le_afterCommands (cs : List Command) (s : Store) :
    s.lastVersion ≤ (s.afterCommands cs).lastVersion := by
  induction cs generalizing s with
  | nil => exact Int.le_refl _
  | cons c cs ih => exact Int.le_trans (s.le_afterCommand c) (ih _)

theorem Sound.afterCommands {s : Store} (hs : s.Sound) (cs : List Command) :
    (s.afterCommands cs).Sound := by
  induction cs generalizing s with
  | nil => exact hs
  | cons c cs ih => exact ih (hs.afterCommand c)

end Store

theorem highWater {start : Store} (hs : start.Sound) (cs : List Command) : HighWater start cs := by
  have hrises : ∀ earlier later, cs = earlier ++ later →
      (start.afterCommands earlier).lastVersion ≤ (start.afterCommands cs).lastVersion := by
    rintro earlier later rfl
    rw [Store.afterCommands_append]
    exact Store.le_afterCommands later _
  refine ⟨(hs.afterCommands cs).nonneg, hrises, ?_⟩
  rintro w ⟨earlier, later, k, d, h, hd, rfl⟩
  exact Int.le_trans ((hs.afterCommands earlier).bounded k d hd) (hrises earlier later h)

section

variable {slot : Slot σ Store}

/-- Every act leaves the store as the commands do that it consists in. -/
theorem SessionAct.exists_dispatches (hslot : slot.Lawful) {a : SessionAct σ} (ha : a.Spares slot)
    {s : Run σ} (hs : (slot.get s.world).Sound) :
    ∃ cs, a.Dispatches slot s cs ∧
      slot.get (a.after slot s).world = (slot.get s.world).afterCommands cs := by
  cases a with
  | command c => exact ⟨[c], rfl, Store.get_turn hslot c s⟩
  | handOver =>
    refine ⟨[], rfl, ?_⟩
    rw [after, hslot]
    exact Store.ofStart_snapshot hs.bounded hs.nonneg
  | program p =>
    obtain ⟨cs, hcs, hnoted⟩ := ByCommands.executeWithState hslot ha (slot.get s.world).snapshot s
    rw [Store.ofStart_snapshot hs.bounded hs.nonneg] at hcs
    exact ⟨cs, hnoted, hcs⟩

theorem exists_history (hslot : slot.Lawful) {acts : List (SessionAct σ)}
    (hacts : ∀ a ∈ acts, a.Spares slot) {s : Run σ} (hs : (slot.get s.world).Sound) :
    ∃ cs, History slot acts s cs := by
  induction acts generalizing s with
  | nil => exact ⟨[], .nil s⟩
  | cons a acts ih =>
    obtain ⟨cs, hcs, hstore⟩ := SessionAct.exists_dispatches hslot (hacts a (List.mem_cons_self ..)) hs
    have hsound := hs.afterCommands cs
    rw [← hstore] at hsound
    -- the commands of an act keep the store sound, so the rest of the sessions starts from a sound one
    obtain ⟨cs', hrest⟩ := ih (fun b hb => hacts b (List.mem_cons_of_mem _ hb)) hsound
    exact ⟨cs ++ cs', .cons hcs hstore hrest⟩

theorem History.get_sessions {acts : List (SessionAct σ)} {s : Run σ} {cs : List Command}
    (h : History slot acts s cs) :
    slot.get (sessions slot acts s).world = (slot.get s.world).afterCommands cs := by
  induction h with
  | nil s => rfl
  | cons hcs hstore hrest ih => exact ih.trans (by rw [hstore, Store.afterCommands_append])

theorem issuesFresh (hslot : slot.Lawful) {start : Store} (hs : start.Sound) (cs : List Command)
    (c : Command) : IssuesFresh slot start cs c := by
  have hhigh := highWater hs cs
  have hnonneg := hhigh.nonneg
  have hmove : ∀ r : Run σ, slot.get r.world = start.afterCommands cs →
      Move (start.afterCommands cs).view c ((Store.backend slot).turn c r).answer
        (slot.get ((Store.backend slot).turn c r).after.world).view := by
    intro r hr
    have h := (Store.turn_isMove hslot c r).move
    rw [Backend.command_turn, Backend.before_turn, hr] at h
    exact h
  constructor
  · rintro r hr hc ⟨x, hx⟩
    obtain ⟨-, content, hd⟩ := (hmove r hr).written hc hx
    refine ⟨_, hd, ?_, ?_, ?_, ?_⟩
    · unfold Version.isSet
      rw [bne_iff_ne]
      show (start.afterCommands cs).lastVersion + 1 ≠ 0
      omega
    · show (start.afterCommands cs).lastVersion < (start.afterCommands cs).lastVersion + 1
      omega
    · intro w hw
      have := hhigh.above w hw
      show w.number < (start.afterCommands cs).lastVersion + 1
      omega
    · intro hi
      obtain ⟨d, rfl, hd', -⟩ := (hmove r hr).answer_written hc hi hx
      rw [hd] at hd'
      cases hd'
      exact hx
  · intro r hr hnot
    refine (hmove r hr).not_written ?_
    cases hc : c.isWrite with
    | false => exact .inl rfl
    | true => exact .inr fun x hx => hnot ⟨hc, x, hx⟩

end

/-! ## Top theorems -/

/-- Over any number of sessions no version is given out twice, whatever documents have been removed.  The
sessions consist in one row of commands, those of programs included; at any time in it the highest
version is above all that has been seen, and the next write, by a program or not, goes beyond it. -/
theorem versions_never_reissued (slot : Slot σ Store) (hslot : slot.Lawful) (m : StartMap)
    (hm : ∀ v ∈ m.lastVersion, 0 ≤ v) (s : Run σ) (hs : slot.get s.world = Store.ofStart m)
    (acts : List (SessionAct σ)) (hacts : ∀ a ∈ acts, a.Spares slot) :
    ∃ cs, History slot acts s cs ∧
      slot.get (sessions slot acts s).world = (Store.ofStart m).afterCommands cs ∧
      (∀ earlier later, cs = earlier ++ later →
        HighWater (Store.ofStart m) earlier ∧ ∀ c, IssuesFresh slot (Store.ofStart m) earlier c) ∧
      (∀ v ∈ m.lastVersion, v ≤ (slot.get (sessions slot acts s).world).lastVersion) ∧
      ∀ p r m' t, Store.executeWithState slot p (slot.get (sessions slot acts s).world).snapshot
        (sessions slot acts s) = .ok (r, m') t → m' = (slot.get t.world).snapshot := by
  have hsound : (Store.ofStart m).Sound := Store.sound_ofStart hm
  obtain ⟨cs, hcs⟩ := exists_history hslot hacts (hs ▸ hsound)
  have hstore := hcs.get_sessions
  rw [hs] at hstore
  refine ⟨cs, hcs, hstore, fun earlier later _ => ?_, fun v hv => ?_, fun p r m' t h => ?_⟩
  · exact ⟨highWater hsound earlier, issuesFresh hslot hsound earlier⟩
  · rw [hstore]
    exact Int.le_trans (Store.le_ofStart hv) (Store.le_afterCommands cs _)
  · exact ByCommands.snapshot_of_executeWithState h

/-- Two documents, one with a negative version, and a highest version that is out of date. -/
def staleStart : StartMap where
  docs := .ofList [(.a, ⟨"x", ⟨5⟩⟩), (⟨"b", by decide⟩, ⟨"y", ⟨-3⟩⟩)]
  lastVersion := some 2

/-- The document with the highest version is removed, and the store handed over. -/
def removal : List (SessionAct Store) := [.command (.remove .a), .handOver]

/-- A document that is created again after its removal gets a version above the one it had. -/
theorem recreated_version_higher :
    (∀ v ∈ staleStart.lastVersion, 0 ≤ v) ∧ (∀ a ∈ removal, a.Spares Slot.whole) ∧
      ∃ d, ((Store.backend Slot.whole).turn (.create ⟨"a", by decide⟩ "z") (sessions Slot.whole removal
          (Run.start (Store.ofStart staleStart)))).after.world.docs.find? ⟨"a", by decide⟩ = some d ∧
        5 < d.version.number := by
  have hm : ∀ v ∈ staleStart.lastVersion, 0 ≤ v := by decide
  have hacts : ∀ a ∈ removal, a.Spares Slot.whole := by
    intro a ha
    rcases List.mem_cons.1 ha with rfl | ha
    · trivial
    · rw [List.mem_singleton.1 ha]
      trivial
  obtain ⟨cs, -, hstore, hfresh, -⟩ := versions_never_reissued Slot.whole Slot.lawful_whole staleStart
    hm (Run.start (Store.ofStart staleStart)) rfl removal hacts
  obtain ⟨-, hissues⟩ := hfresh cs [] (List.append_nil cs).symm
  obtain ⟨d, hd, -, -, hseen, -⟩ :=
    (hissues (.create ⟨"a", by decide⟩ "z")).written _ hstore rfl (by decide +kernel)
  exact ⟨hm, hacts, d, hd, hseen ⟨5⟩ ⟨[], cs, ⟨"a", by decide⟩, ⟨"x", ⟨5⟩⟩, rfl, rfl, rfl⟩⟩

end CasStore
