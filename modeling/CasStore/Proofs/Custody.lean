import CasStore.Network
import CasStore.Proofs.Effects

/-!
# Where sessions are

A network backend opens sessions, and each of them has to be closed one day.  Until then it is live, or
the caller has taken it out and holds it.  Putting a session in displaces the one that is live: nobody
holds that one any more, and nobody will close it.

    what each call does to the sessions                              (moved_connect … moved_attach)
    a call keeps every session in one place                          (Accounted.after)
    no session is lost exactly if none was displaced                 (sessions_in_one_place)

The caller's side is kept beside the run: the sessions held, and those that have been displaced.  The
driver is any one; what it is asked to close is noted.
-/

namespace CasStore

variable {σ : Type}

/-! ## Algorithm -/

/-- A world with a link, and all the sessions in it that a driver has been asked to close. -/
structure Ledger (σ : Type) where
  outer : σ
  link : Link
  closed : List Session

namespace Ledger

/-- The link in a ledger. -/
def slot : Slot (Ledger σ) Link := ⟨link, fun l w => { w with link := l }⟩

/-- A call on the outer world, as a call on the ledger. -/
def onOuter {α : Type} (x : σ → Reply σ α) (w : Ledger σ) : Reply (Ledger σ) α :=
  match x w.outer with
  | .ok a o => .ok a { w with outer := o }
  | .error e o => .error e { w with outer := o }

end Ledger

/-- The driver `d`, with a note of every session that it is asked to close. -/
def Driver.noting (d : Driver σ) : Driver (Ledger σ) where
  ping settings := Ledger.onOuter (d.ping settings)
  prepare settings w := { w with outer := d.prepare settings w.outer }
  send r w := ((d.send r w.outer).1, { w with outer := (d.send r w.outer).2 })
  close session w := Ledger.onOuter (d.close session) { w with closed := w.closed ++ [session] }

/-- The network of a driver whose closings are noted. -/
def Driver.network (d : Driver σ) (settings : Settings) : Network (Ledger σ) :=
  ⟨settings, d.noting, Ledger.slot⟩

/-- What is done with the session of a backend.  Inside a running loop a session is closed later, when
the loop comes to it. -/
inductive SessionCall
  | connect
  | disconnect
  | disconnectLater
  | closeNext
  | detach
  | attach (session : Session)
  deriving DecidableEq

/-- A run, the sessions that the caller holds, and those that were live when another was put in. -/
structure Custody (σ : Type) where
  run : Run (Ledger σ)
  held : List Session
  displaced : List Session

namespace Custody

/-- Nothing has been opened. -/
def start (s : Run σ) : Custody σ := ⟨{ s with world := ⟨s.world, .idle, []⟩ }, [], []⟩

/-- The live session, if there is one. -/
def live (c : Custody σ) : List Session := c.run.world.link.live.toList

/-- The sessions that have been closed, and those that wait for the loop to close them. -/
def ended (c : Custody σ) : List Session := c.run.world.closed ++ c.run.world.link.closing

/-- The session has been opened. -/
def Opened (settings : Settings) (c : Custody σ) (session : Session) : Prop :=
  session.bucket = settings.bucketName ∧ session.serial < c.run.world.link.opened

instance (settings : Settings) (c : Custody σ) (session : Session) :
    Decidable (c.Opened settings session) := inferInstanceAs (Decidable (_ ∧ _))

/-- What a call leaves, whether it returns or raises. -/
def after (n : Network (Ledger σ)) (c : Custody σ) : SessionCall → Custody σ
  | .connect => { c with run := Reply.left (n.connect c.run) }
  | .disconnect => { c with run := Reply.left (n.disconnect c.run) }
  | .disconnectLater => { c with run := Reply.left (n.disconnectLater c.run) }
  | .closeNext => { c with run := Reply.left (n.closeNext false c.run) }
  | .detach =>
    match n.detach c.run with
    | .ok session s => { c with run := s, held := session.toList ++ c.held }
    | .error _ s => { c with run := s }
  | .attach session =>
    { run := Reply.left (n.attach (some session) c.run), held := c.held.erase session,
      displaced := c.displaced ++ c.live }

/-- What any number of calls leave. -/
def afterAll (n : Network (Ledger σ)) (calls : List SessionCall) (c : Custody σ) : Custody σ :=
  calls.foldl (after n) c

/-- Only a session that the caller holds is put in. -/
def Allows (c : Custody σ) : SessionCall → Prop
  | .attach session => session ∈ c.held
  | _ => True

/-- A session is put in only while none is live. -/
def Spares (c : Custody σ) : SessionCall → Prop
  | .attach _ => c.live = []
  | _ => True

/-- Each of the calls is made where `P` holds of it. -/
def Throughout (P : Custody σ → SessionCall → Prop) (n : Network (Ledger σ)) :
    List SessionCall → Custody σ → Prop
  | [], _ => True
  | call :: calls, c => P c call ∧ Throughout P n calls (c.after n call)

/-- Every session ever opened is live, held by the caller, or ended: in one of these places, and there
once. -/
def OnePlace (settings : Settings) (c : Custody σ) : Prop :=
  ∀ session, c.Opened settings session →
    c.live.count session + c.held.count session + c.ended.count session = 1

/-- In how many places a session is, among the displaced ones included. -/
def places (c : Custody σ) (session : Session) : Nat :=
  c.live.count session + c.held.count session + c.ended.count session + c.displaced.count session

/-- Together with the displaced sessions, all that have been opened are in one place, and no others. -/
def Accounted (settings : Settings) (c : Custody σ) : Prop :=
  ∀ session, c.places session = if c.Opened settings session then 1 else 0

end Custody

/-! ## Lemmas -/

/-! ### One call -/

namespace Network

variable {n : Network σ} {s : Run σ}

/-- What closing a session came to, noted. -/
def closingNoted (session : Session) : Reply (Run σ) Unit → Reply (Run σ) Unit
  | .ok () t => noteClosed session t
  | .error e t =>
    match e.written with
    | .ok text =>
      Run.note "redis.session_close_failed" .warning
        [("bucket", .text session.bucket), ("error", .text text)] t
    | .error _ => .ok () t

theorem isConnected_eq (n : Network σ) (s : Run σ) :
    n.isConnected s = .ok (n.slot.get s.world).live.isSome s := rfl

theorem connect_of_live (h : (n.slot.get s.world).live.isSome = true) :
    n.connect s = .ok (.ok .null) s := by
  have hconnected := isConnected_eq n s
  rw [h] at hconnected
  rw [connect, bind_of_ok hconnected]
  rfl

theorem connect_of_idle (h : (n.slot.get s.world).live.isSome = false) :
    n.connect s =
      match Run.onWorld (n.driver.ping n.settings) s with
      | .ok () t => n.openSession t
      | .error e t =>
        if e.isTransport then
          (do
            let text ← Call.ofExcept e.written
            Run.note "redis.connect_failed" .warning (n.address ++ [("error", .text text)])
            let failure ← Call.ofExcept (e.wrap (("backend", .text name) :: n.address))
            return .error failure : Call (Run σ) Result) t
        else .error e t := by
  have hidle := isConnected_eq n s
  rw [h] at hidle
  rw [connect, bind_of_ok hidle]
  rfl

theorem closeNext_of_closing {session : Session} {rest : List Session}
    (h : (n.slot.get s.world).closing = session :: rest) :
    n.closeNext false s = closingNoted session (Run.onWorld (n.driver.close session)
      { s with world := n.slot.set { n.slot.get s.world with closing := rest } s.world }) := by
  have hlink : n.link s = .ok (n.slot.get s.world) s := rfl
  rw [closeNext, bind_of_ok hlink, h]
  rfl

end Network

namespace Ledger

variable {α β : Type} {s : Run (Ledger σ)} {l : Link} {closed : List Session}

/-- A call leaves this link, and these sessions closed. -/
def Leaves (x : Reply (Run (Ledger σ)) α) (l : Link) (closed : List Session) : Prop :=
  (Reply.left x).world.link = l ∧ (Reply.left x).world.closed = closed

theorem Leaves.bind {x : Call (Run (Ledger σ)) α} {f : α → Call (Run (Ledger σ)) β}
    (hx : Leaves (x s) l closed) (hf : ∀ a t, Leaves (f a t) t.world.link t.world.closed) :
    Leaves ((x >>= f) s) l closed := by
  cases h : x s with
  | ok a t =>
    rw [h] at hx
    obtain ⟨hlink, hclosed⟩ := hf a t
    rw [bind_of_ok h]
    exact ⟨hlink.trans hx.1, hclosed.trans hx.2⟩
  | error e t =>
    rw [h] at hx
    rw [bind_of_error h]
    exact hx

theorem Leaves.noted {x : Reply (Run (Ledger σ)) Unit} (hx : Leaves x l closed) (session : Session) :
    Leaves (Network.closingNoted session x) l closed := by
  cases x with
  | ok u t => exact hx
  | error e t =>
    simp only [Network.closingNoted]
    cases e.written <;> exact hx

theorem leaves_onOuter (x : σ → Reply σ α) (s : Run (Ledger σ)) :
    Leaves (Run.onWorld (onOuter x) s) s.world.link s.world.closed := by
  unfold Run.onWorld onOuter
  cases x s.world.outer <;> exact ⟨rfl, rfl⟩

end Ledger

section

open Ledger

variable (settings : Settings) (d : Driver σ) (s : Run (Ledger σ))

/-- What the driver is asked to close is noted, also where closing raises. -/
theorem Driver.leaves_close (session : Session) :
    Leaves (Run.onWorld ((d.network settings).driver.close session) s) s.world.link
      (s.world.closed ++ [session]) :=
  leaves_onOuter (d.close session)
    { s with world := { s.world with closed := s.world.closed ++ [session] } }

/-- Connecting opens a session or changes nothing; where one is live it changes nothing. -/
theorem leaves_connect :
    Leaves ((d.network settings).connect s) s.world.link s.world.closed ∨
      s.world.link.live = none ∧
        Leaves ((d.network settings).connect s) (s.world.link.connect settings.bucketName)
          s.world.closed := by
  cases hlive : s.world.link.live with
  | some session =>
    left
    rw [Network.connect_of_live (n := d.network settings) (congrArg Option.isSome hlive)]
    exact ⟨rfl, rfl⟩
  | none =>
    have hping : Leaves (Run.onWorld ((d.network settings).driver.ping
        (d.network settings).settings) s) s.world.link s.world.closed :=
      leaves_onOuter (d.ping settings) s
    rw [Network.connect_of_idle (n := d.network settings) (congrArg Option.isSome hlive)]
    revert hping
    cases Run.onWorld ((d.network settings).driver.ping (d.network settings).settings) s with
    | ok u t =>
      intro hping
      exact .inr ⟨rfl, congrArg (Link.connect · settings.bucketName) hping.1, hping.2⟩
    | error e t =>
      intro hping
      left
      simp only
      split
      · cases e.written with
        | error => exact hping
        | ok text =>
          cases e.wrap (("backend", .text Network.name) :: (d.network settings).address) <;> exact hping
      · exact hping

theorem leaves_disconnect :
    Leaves ((d.network settings).disconnect s) { s.world.link with live := none }
      (s.world.closed ++ s.world.link.live.toList) := by
  have hdetach : (d.network settings).detach s = .ok s.world.link.live
    { s with world := { s.world with link := { s.world.link with live := none } } } := rfl
  rw [Network.disconnect, bind_of_ok hdetach]
  cases s.world.link.live with
  | none => exact ⟨rfl, (List.append_nil _).symm⟩
  | some session => exact (d.leaves_close settings _ session).bind fun _ _ => ⟨rfl, rfl⟩

theorem leaves_disconnectLater :
    Leaves ((d.network settings).disconnectLater s)
      { s.world.link with live := none, closing := s.world.link.closing ++ s.world.link.live.toList }
      s.world.closed := by
  have hdetach : (d.network settings).detach s = .ok s.world.link.live
    { s with world := { s.world with link := { s.world.link with live := none } } } := rfl
  rw [Network.disconnectLater, bind_of_ok hdetach]
  cases s.world.link.live with
  | none => exact ⟨by rw [Option.toList_none, List.append_nil]; rfl, rfl⟩
  | some session => exact ⟨rfl, rfl⟩

/-- The loop closes the session that has waited longest. -/
theorem leaves_closeNext :
    Leaves ((d.network settings).closeNext false s)
      { s.world.link with closing := s.world.link.closing.tail }
      (s.world.closed ++ s.world.link.closing.head?.toList) := by
  cases hclosing : s.world.link.closing with
  | nil =>
    have hlink : (d.network settings).link s = .ok s.world.link s := rfl
    rw [Network.closeNext, bind_of_ok hlink, hclosing]
    exact ⟨congrArg (fun cs => { s.world.link with closing := cs }) hclosing,
      (List.append_nil _).symm⟩
  | cons session rest =>
    rw [Network.closeNext_of_closing (n := d.network settings) hclosing]
    exact (d.leaves_close settings _ session).noted session

end

/-! ### Accounts -/

namespace Custody

variable {settings : Settings} {c : Custody σ} {α : Type} {x : Reply (Run (Ledger σ)) α} {l : Link}
  {closed held displaced : List Session}

theorem places_of_leaves (hx : Ledger.Leaves x l closed) (session : Session) :
    places ⟨Reply.left x, held, displaced⟩ session =
      l.live.toList.count session + held.count session + (closed ++ l.closing).count session +
        displaced.count session := by
  unfold places live ended
  simp only [hx.1, hx.2]

/-- A call that opens no session and takes none out of all places keeps the account. -/
theorem Accounted.of_leaves (h : c.Accounted settings) (hx : Ledger.Leaves x l closed)
    (hopened : l.opened = c.run.world.link.opened)
    (hplaces : ∀ session, l.live.toList.count session + held.count session +
      (closed ++ l.closing).count session + displaced.count session = c.places session) :
    Accounted settings ⟨Reply.left x, held, displaced⟩ := by
  intro session
  have hsame : (Reply.left x).world.link.opened = c.run.world.link.opened := by
    rw [hx.1, hopened]
  have hopen : Opened settings ⟨Reply.left x, held, displaced⟩ session ↔ c.Opened settings session := by
    unfold Opened
    rw [hsame]
  rw [places_of_leaves hx, hplaces, h]
  simp only [hopen]

/-- The session that is opened next. -/
def upcoming (settings : Settings) (c : Custody σ) : Session :=
  ⟨c.run.world.link.opened, settings.bucketName⟩

theorem opened_opening_iff (hlink : (Reply.left x).world.link = c.run.world.link.connect settings.bucketName)
    (session : Session) :
    Opened settings ⟨Reply.left x, held, displaced⟩ session ↔
      c.Opened settings session ∨ session = c.upcoming settings := by
  obtain ⟨serial, bucket⟩ := session
  simp only [Opened, upcoming, hlink, Link.connect, Session.mk.injEq, Nat.lt_succ_iff_lt_or_eq]
  constructor
  · rintro ⟨hbucket, hlt | heq⟩
    · exact .inl ⟨hbucket, hlt⟩
    · exact .inr ⟨heq, hbucket⟩
  · rintro (⟨hbucket, hlt⟩ | ⟨heq, hbucket⟩)
    · exact ⟨hbucket, .inl hlt⟩
    · exact ⟨hbucket, .inr heq⟩

/-- A session that connecting opens was in no place before. -/
theorem Accounted.opening (h : c.Accounted settings) (hlive : c.run.world.link.live = none)
    (hx : Ledger.Leaves x (c.run.world.link.connect settings.bucketName) c.run.world.closed) :
    Accounted settings ⟨Reply.left x, c.held, c.displaced⟩ := by
  intro session
  have hadded : places ⟨Reply.left x, c.held, c.displaced⟩ session =
      c.places session + [c.upcoming settings].count session := by
    rw [places_of_leaves hx]
    show [c.upcoming settings].count session + _ + _ + _ = _
    simp only [places, live, ended, hlive, Link.connect, Option.toList_none, List.count_nil]
    omega
  have hopen : Opened settings ⟨Reply.left x, c.held, c.displaced⟩ session ↔
      c.Opened settings session ∨ session = c.upcoming settings := opened_opening_iff hx.1 session
  have hfresh : ¬ c.Opened settings (c.upcoming settings) := fun hnew => Nat.lt_irrefl _ hnew.2
  rw [hadded, h session, List.count_singleton]
  by_cases hnew : session = c.upcoming settings
  · rw [if_pos (hopen.2 (.inr hnew)), hnew, if_neg hfresh, if_pos (beq_self_eq_true _)]
  · rw [if_neg (show ¬ (c.upcoming settings == session) = true from fun heq => hnew (beq_iff_eq.1 heq).symm)]
    simp only [hopen, hnew, or_false, Nat.add_zero]

/-- A call keeps every session in one place. -/
theorem Accounted.after (h : c.Accounted settings) (d : Driver σ) {call : SessionCall}
    (hcall : c.Allows call) : (c.after (d.network settings) call).Accounted settings := by
  cases call with
  | connect =>
    rcases leaves_connect settings d c.run with hsame | ⟨hlive, hopened⟩
    · exact h.of_leaves hsame rfl fun session => rfl
    · exact h.opening hlive hopened
  | disconnect =>
    refine h.of_leaves (leaves_disconnect settings d c.run) rfl fun session => ?_
    simp only [places, live, ended, Option.toList_none, List.count_nil, List.count_append]
    omega
  | disconnectLater =>
    refine h.of_leaves (leaves_disconnectLater settings d c.run) rfl fun session => ?_
    simp only [places, live, ended, Option.toList_none, List.count_nil, List.count_append]
    omega
  | closeNext =>
    refine h.of_leaves (leaves_closeNext settings d c.run) rfl fun session => ?_
    simp only [places, live, ended]
    cases c.run.world.link.closing with
    | nil => simp
    | cons first rest => simp
  | detach =>
    have hdetach : Ledger.Leaves ((d.network settings).detach c.run)
      { c.run.world.link with live := none } c.run.world.closed := ⟨rfl, rfl⟩
    have hafter : c.after (d.network settings) .detach =
      ⟨Reply.left ((d.network settings).detach c.run), c.live ++ c.held, c.displaced⟩ := rfl
    rw [hafter]
    refine h.of_leaves hdetach rfl fun session => ?_
    simp only [places, ended, Option.toList_none, List.count_nil, List.count_append]
    omega
  | attach other =>
    have hattach : Ledger.Leaves ((d.network settings).attach (some other) c.run)
      { c.run.world.link with live := some other } c.run.world.closed := ⟨rfl, rfl⟩
    refine h.of_leaves hattach rfl fun session => ?_
    -- what is put in leaves the caller's hands, and what was live goes among the displaced
    have hheld : 0 < c.held.count other := List.count_pos_iff.2 hcall
    show [other].count session + (c.held.erase other).count session + _ +
      (c.displaced ++ c.live).count session = _
    simp only [places, ended, List.count_singleton, List.count_erase, List.count_append]
    split
    · next heq =>
      rw [beq_iff_eq] at heq
      subst heq
      omega
    · omega

/-! ### Many calls -/

theorem accounted_start (settings : Settings) (s : Run σ) : (start s).Accounted settings := by
  intro session
  have hnone : ¬ (start s).Opened settings session := fun h => Nat.not_lt_zero _ h.2
  rw [if_neg hnone]
  rfl

theorem Accounted.afterAll (h : c.Accounted settings) (d : Driver σ) {calls : List SessionCall}
    (hcalls : Throughout Allows (d.network settings) calls c) :
    (c.afterAll (d.network settings) calls).Accounted settings := by
  induction calls generalizing c with
  | nil => exact h
  | cons call calls ih => exact ih (h.after d hcalls.1) hcalls.2

theorem displaced_after_eq_nil_iff (n : Network (Ledger σ)) (c : Custody σ) (call : SessionCall) :
    (c.after n call).displaced = [] ↔ c.displaced = [] ∧ c.Spares call := by
  cases call with
  | attach session => exact List.append_eq_nil_iff
  | detach => exact (and_iff_left trivial).symm
  | connect | disconnect | disconnectLater | closeNext => exact (and_iff_left trivial).symm

/-- Sessions are displaced only by putting one in while another is live. -/
theorem displaced_afterAll_eq_nil_iff (n : Network (Ledger σ)) (calls : List SessionCall)
    (c : Custody σ) :
    (c.afterAll n calls).displaced = [] ↔ c.displaced = [] ∧ Throughout Spares n calls c := by
  induction calls generalizing c with
  | nil => exact (and_iff_left trivial).symm
  | cons call calls ih =>
    rw [afterAll, List.foldl_cons]
    exact (ih _).trans (by rw [displaced_after_eq_nil_iff, and_assoc, Throughout])

theorem Accounted.onePlace_iff (h : c.Accounted settings) : c.OnePlace settings ↔ c.displaced = [] := by
  constructor
  · intro hone
    cases hdisplaced : c.displaced with
    | nil => rfl
    | cons session rest =>
      have hplaces := h session
      have hcount : 0 < c.displaced.count session := by
        rw [hdisplaced]
        exact List.count_pos_iff.2 (List.mem_cons_self ..)
      unfold places at hplaces
      by_cases hopened : c.Opened settings session
      · have := hone session hopened
        rw [if_pos hopened] at hplaces
        omega
      · rw [if_neg hopened] at hplaces
        omega
  · intro hdisplaced session hopened
    have hplaces := h session
    rw [if_pos hopened, places, hdisplaced, List.count_nil] at hplaces
    exact hplaces

theorem Accounted.nodup_ended (h : c.Accounted settings) : c.ended.Nodup := by
  rw [List.nodup_iff_count]
  intro session
  have hplaces := h session
  unfold places at hplaces
  split at hplaces <;> omega

end Custody

/-! ## Top theorems -/

/-- Whatever is done with the sessions of a backend, on any driver: as long as only sessions are put in
that have been taken out and not been put in since, no session is in two places or closed twice, and all
sessions ever opened are live, held or ended, exactly if none was put in while another was live. -/
theorem sessions_in_one_place (settings : Settings) (d : Driver σ) (calls : List SessionCall)
    (s : Run σ)
    (hallowed : Custody.Throughout Custody.Allows (d.network settings) calls (Custody.start s)) :
    let c := (Custody.start s).afterAll (d.network settings) calls
    c.Accounted settings ∧ c.ended.Nodup ∧
      (c.OnePlace settings ↔
        Custody.Throughout Custody.Spares (d.network settings) calls (Custody.start s)) := by
  have haccounted := (Custody.accounted_start settings s).afterAll d hallowed
  refine ⟨haccounted, haccounted.nodup_ended, haccounted.onePlace_iff.trans ?_⟩
  rw [Custody.displaced_afterAll_eq_nil_iff]
  exact and_iff_right rfl

/-- A network whose server is in the world itself, and nothing opened yet. -/
def localNetwork : Network (Ledger Keyspace) := (Keyspace.driver Slot.whole).network Settings.default

/-- The first session. -/
def firstSession : Session := ⟨0, Settings.default.bucketName⟩

/-- The session is taken out, put in again, and closed. -/
def swapping : List SessionCall := [.connect, .detach, .attach firstSession, .disconnect]

/-- A session that was away for a while is closed once, like any other. -/
theorem swapped_session_closed :
    Custody.Throughout Custody.Allows localNetwork swapping (Custody.start (Run.start .empty)) ∧
      Custody.OnePlace Settings.default
        ((Custody.start (Run.start .empty)).afterAll localNetwork swapping) ∧
      ((Custody.start (Run.start .empty)).afterAll localNetwork swapping).run.world.closed =
        [firstSession] := by
  have hallowed : Custody.Throughout Custody.Allows localNetwork swapping
      (Custody.start (Run.start .empty)) :=
    ⟨trivial, trivial, List.mem_cons_self .., trivial, trivial⟩
  obtain ⟨-, -, hone⟩ := sessions_in_one_place Settings.default (Keyspace.driver Slot.whole) swapping
    (Run.start .empty) hallowed
  exact ⟨hallowed, hone.2 ⟨trivial, trivial, rfl, trivial, trivial⟩, rfl⟩

/-- While the first session is away a second one is opened; then the first is put in again, and the
backend is disconnected. -/
def displacing : List SessionCall := [.connect, .detach, .connect, .attach firstSession, .disconnect]

/-- The second session is in none of the places then: nobody can close it any more. -/
theorem displaced_session_lost :
    Custody.Throughout Custody.Allows localNetwork displacing (Custody.start (Run.start .empty)) ∧
      Custody.Opened Settings.default
        ((Custody.start (Run.start .empty)).afterAll localNetwork displacing)
        ⟨1, Settings.default.bucketName⟩ ∧
      ((Custody.start (Run.start .empty)).afterAll localNetwork displacing).live = [] ∧
      ((Custody.start (Run.start .empty)).afterAll localNetwork displacing).held = [] ∧
      ((Custody.start (Run.start .empty)).afterAll localNetwork displacing).ended = [firstSession] ∧
      ¬ Custody.OnePlace Settings.default
        ((Custody.start (Run.start .empty)).afterAll localNetwork displacing) := by
  have hopened : Custody.Opened Settings.default
      ((Custody.start (Run.start .empty)).afterAll localNetwork displacing)
      ⟨1, Settings.default.bucketName⟩ := ⟨rfl, Nat.lt_succ_self 1⟩
  refine ⟨⟨trivial, trivial, trivial, List.mem_cons_self .., trivial, trivial⟩, hopened, rfl, rfl, rfl,
    fun hone => ?_⟩
  have hcount : (0 : Nat) = 1 := hone _ hopened
  exact Nat.zero_ne_one hcount

end CasStore
