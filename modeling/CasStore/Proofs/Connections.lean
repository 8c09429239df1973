import CasStore.Proofs.Custody

/-!
# Failures of connecting and disconnecting

Connecting asks the server over a connection of its own, and closes that again.  Whatever the driver
raises meanwhile becomes the result, if its message can be written, and the backend is left disconnected.
Disconnecting takes the live session out before it is closed, so the backend is disconnected in any case.
Inside a running loop the session is closed later, and what that raises is noted.  Outside a loop it is
closed at once, and what that raises is raised.

    asking raises nothing but what the driver raises                 (raises_probing)
    connecting comes to a result                                     (contained_connect)
    disconnecting raises what closing the live session raises        (contained_disconnect)
    every call is contained in this way                              (driver_failures_contained)
    a session that cannot be closed makes disconnecting raise        (closing_failure_escapes)
-/

namespace CasStore

variable {σ α : Type}

/-! ## Algorithm -/

/-- What a call on the session of a backend comes to; connecting answers with a result. -/
def SessionCall.perform (n : Network σ) : SessionCall → Call (Run σ) (Option Result)
  | .connect => do return some (← n.connect)
  | .disconnect => do
    n.disconnect
    return none
  | .disconnectLater => do
    n.disconnectLater
    return none
  | .closeNext => do
    n.closeNext false
    return none
  | .detach => do
    let _ ← n.detach
    return none
  | .attach session => do
    n.attach (some session)
    return none

/-- A call that has been made: the run before it, and what it came to. -/
structure SessionTurn (σ : Type) where
  call : SessionCall
  before : Run σ
  reply : Reply (Run σ) (Option Result)

/-- What the caller gets. -/
def SessionTurn.answer (turn : SessionTurn σ) : Except Fault (Option Result) :=
  match turn.reply with
  | .ok a _ => .ok a
  | .error e _ => .error e

/-- Calls made one after another.  A call that raises is followed by the next one like any other. -/
def sessionTurns (n : Network σ) : List SessionCall → Run σ → List (SessionTurn σ)
  | [], _ => []
  | call :: calls, s =>
    ⟨call, s, call.perform n s⟩ :: sessionTurns n calls (Reply.left (call.perform n s))

/-- A driver's call raises nothing but errors of the driver or of the system. -/
def RaisesTransport (c : Call σ α) : Prop := ∀ s e t, c s = .error e t → e.isTransport = true

/-- The error is a failure of the backend, and an error of the driver or of the system is its cause. -/
def Fault.IsTransportFailure (f : Fault) : Prop :=
  ∃ d e, f = .store d ∧ d.kind = .backend ∧ d.cause = some e ∧ e.isTransport = true

/-- There is a live session. -/
def Ledger.IsConnected (s : Run (Ledger σ)) : Prop := s.world.link.live.isSome = true

/-- What the driver raises is contained; sessions are closed by `close`.  Connecting answers with null or
with a failure of the backend, and the backend is connected afterwards exactly in the first case; it
raises only where the message of the driver's error cannot be written, and leaves it disconnected then.
Disconnecting leaves it disconnected; inside a loop it returns, and so does the closing of the session
then, whatever that raises.  Outside a loop it returns if closing the live session returns, and otherwise
raises what that raises. -/
inductive SessionTurn.IsContained (close : Session → σ → Reply σ Unit) : SessionTurn (Ledger σ) → Prop
  | connected {s t} (h : Ledger.IsConnected t) :
      IsContained close ⟨.connect, s, .ok (some (.ok .null)) t⟩
  | failed {s t f} (hf : Fault.IsTransportFailure f) (h : ¬ Ledger.IsConnected t) :
      IsContained close ⟨.connect, s, .ok (some (.error f)) t⟩
  | unsaid {s t} {e : Fault} (he : e.isTransport = true) (hmessage : e.hasMessage = false)
      (h : ¬ Ledger.IsConnected t) : IsContained close ⟨.connect, s, .error (.ofNumeral .tooLarge) t⟩
  | disconnected {s t}
      (hclosed : ∀ session, s.world.link.live = some session →
        ∃ w, close session s.world.outer = .ok () w)
      (h : ¬ Ledger.IsConnected t) : IsContained close ⟨.disconnect, s, .ok none t⟩
  | raised {s t e w session} (hlive : s.world.link.live = some session)
      (hclosed : close session s.world.outer = .error e w) (h : ¬ Ledger.IsConnected t) :
      IsContained close ⟨.disconnect, s, .error e t⟩
  | disconnectedLater {s t} (h : ¬ Ledger.IsConnected t) :
      IsContained close ⟨.disconnectLater, s, .ok none t⟩
  | closed {s t} : IsContained close ⟨.closeNext, s, .ok none t⟩
  | detached {s t} (h : ¬ Ledger.IsConnected t) : IsContained close ⟨.detach, s, .ok none t⟩
  | attached {session s t} (h : Ledger.IsConnected t) :
      IsContained close ⟨.attach session, s, .ok none t⟩

/-! ## Lemmas -/

/-! ### The network -/

namespace Network

variable {n : Network σ} {s : Run σ}

/-- The run with the live session taken out. -/
def detached (n : Network σ) (s : Run σ) : Run σ :=
  { s with world := n.slot.set { n.slot.get s.world with live := none } s.world }

theorem detach_eq (n : Network σ) (s : Run σ) :
    n.detach s = .ok (n.slot.get s.world).live (n.detached s) := rfl

theorem disconnect_of_idle (h : (n.slot.get s.world).live = none) :
    n.disconnect s = .ok () (n.detached s) := by
  rw [disconnect, bind_of_ok (detach_eq n s), h]
  rfl

section

variable {session : Session} {t : Run σ} (h : (n.slot.get s.world).live = some session)
include h

theorem exists_disconnect (hclose : Run.onWorld (n.driver.close session) (n.detached s) = .ok () t) :
    ∃ u, n.disconnect s = .ok () u := by
  rw [disconnect, bind_of_ok (detach_eq n s), h]
  exact ⟨_, bind_of_ok hclose⟩

theorem disconnect_of_error {e : Fault}
    (hclose : Run.onWorld (n.driver.close session) (n.detached s) = .error e t) :
    n.disconnect s = .error e t := by
  rw [disconnect, bind_of_ok (detach_eq n s), h]
  exact bind_of_error hclose

end

theorem exists_disconnectLater (n : Network σ) (s : Run σ) : ∃ t, n.disconnectLater s = .ok () t := by
  rw [disconnectLater, bind_of_ok (detach_eq n s)]
  cases (n.slot.get s.world).live with
  | none => exact ⟨_, rfl⟩
  | some session => exact ⟨_, rfl⟩

theorem exists_closeNext (n : Network σ) (s : Run σ) : ∃ t, n.closeNext false s = .ok () t := by
  cases hclosing : (n.slot.get s.world).closing with
  | nil =>
    have hlink : n.link s = .ok (n.slot.get s.world) s := rfl
    rw [closeNext, bind_of_ok hlink, hclosing]
    exact ⟨s, rfl⟩
  | cons session rest =>
    rw [closeNext_of_closing hclosing]
    cases Run.onWorld (n.driver.close session) _ with
    | ok u t => exact ⟨_, rfl⟩
    | error e t =>
      simp only [closingNoted]
      cases e.written with
      | ok text => exact ⟨_, rfl⟩
      | error => exact ⟨_, rfl⟩

end Network

theorem Ledger.Leaves.not_isConnected {x : Reply (Run (Ledger σ)) α} {l : Link} {closed : List Session}
    (h : Leaves x l closed) (hl : l.live = none) : ¬ IsConnected (Reply.left x) := by
  rw [IsConnected, h.1, hl]
  exact Bool.false_ne_true

/-! ### The driver -/

/-- What is raised in the end was raised by the call or by the cleanup. -/
theorem RaisesTransport.closing {c : Call σ α} {cleanup : Call σ Unit} (hc : RaisesTransport c)
    (hcleanup : RaisesTransport cleanup) : RaisesTransport (c.closing cleanup) := by
  intro s e t h
  unfold Call.closing at h
  cases hs : c s with
  | ok a s' =>
    simp only [hs] at h
    cases hs' : cleanup s' with
    | ok u s'' => simp only [hs'] at h; cases h
    | error e' s'' => simp only [hs'] at h; cases h; exact hcleanup _ _ _ hs'
  | error e' s' =>
    simp only [hs] at h
    cases hs' : cleanup s' with
    | ok u s'' => simp only [hs'] at h; cases h; exact hc _ _ _ hs
    | error e'' s'' => simp only [hs'] at h; cases h; exact hcleanup _ _ _ hs'

section

variable (settings : Settings) {d : Driver σ} {ask hangUp : Settings → σ → Reply σ Unit}
  (s : Run (Ledger σ))

/-- Asking the server raises nothing but what the driver raises. -/
theorem raises_probing (hask : RaisesTransport (ask settings))
    (hhangUp : RaisesTransport (hangUp settings)) :
    RaisesTransport ((d.probing ask hangUp).ping settings) :=
  hask.closing hhangUp

theorem Ledger.raises_onOuter {x : σ → Reply σ α} (hx : RaisesTransport x) :
    RaisesTransport (Run.onWorld (Ledger.onOuter x)) := by
  intro s e t h
  unfold Run.onWorld Ledger.onOuter at h
  cases hs : x s.world.outer with
  | ok a w => simp only [hs] at h; cases h
  | error e' w => simp only [hs] at h; cases h; exact hx _ _ _ hs

theorem Ledger.onOuter_returns {x : σ → Reply σ α} {s : Run (Ledger σ)} {a : α} {w : σ}
    (h : x s.world.outer = .ok a w) : ∃ t, Run.onWorld (Ledger.onOuter x) s = .ok a t := by
  simp only [Run.onWorld, Ledger.onOuter, h]
  exact ⟨_, rfl⟩

theorem Ledger.onOuter_raises {x : σ → Reply σ α} {s : Run (Ledger σ)} {e : Fault} {w : σ}
    (h : x s.world.outer = .error e w) : ∃ t, Run.onWorld (Ledger.onOuter x) s = .error e t := by
  simp only [Run.onWorld, Ledger.onOuter, h]
  exact ⟨_, rfl⟩

/-! ### One call -/

/-- Connecting comes to a result, unless an error cannot be said, and only with the result null is there a
live session then. -/
theorem contained_connect (hping : RaisesTransport (d.ping settings)) :
    SessionTurn.IsContained d.close
      ⟨.connect, s, SessionCall.connect.perform (d.network settings) s⟩ := by
  cases hlive : s.world.link.live with
  | some session =>
    have hconnect := Network.connect_of_live (n := d.network settings) (congrArg Option.isSome hlive)
    rw [SessionCall.perform, bind_of_ok hconnect]
    exact .connected (congrArg Option.isSome hlive)
  | none =>
    let ping : Call (Run (Ledger σ)) Unit :=
      Run.onWorld ((d.network settings).driver.ping (d.network settings).settings)
    have hconnect := Network.connect_of_idle (n := d.network settings) (congrArg Option.isSome hlive)
    have hraises : RaisesTransport ping := Ledger.raises_onOuter hping
    have hleft : Ledger.Leaves (ping s) s.world.link s.world.closed :=
      Ledger.leaves_onOuter (d.ping settings) s
    cases hs : ping s with
    | ok u t =>
      rw [show Run.onWorld _ s = _ from hs] at hconnect
      rw [SessionCall.perform, bind_of_ok (hconnect.trans rfl)]
      exact .connected rfl
    | error e t =>
      have he := hraises s e t hs
      have hidle : t.world.link.live.isSome = false := by
        rw [hs] at hleft
        rw [show t.world.link = s.world.link from hleft.1, hlive]
        rfl
      rw [show Run.onWorld _ s = _ from hs] at hconnect
      simp only [he, if_true] at hconnect
      cases hmessage : e.hasMessage with
      | true =>
        rw [Fault.written_of_hasMessage hmessage, Fault.wrap_of_hasMessage hmessage] at hconnect
        rw [SessionCall.perform, bind_of_ok (hconnect.trans rfl)]
        exact .failed ⟨_, e, rfl, rfl, rfl, he⟩ (Bool.eq_false_iff.1 hidle)
      | false =>
        rw [Fault.written_of_not_hasMessage hmessage] at hconnect
        rw [SessionCall.perform, bind_of_error (hconnect.trans rfl)]
        exact .unsaid he hmessage (Bool.eq_false_iff.1 hidle)

/-- Disconnecting, outside a loop, raises what closing the live session raises. -/
theorem contained_disconnect :
    SessionTurn.IsContained d.close
      ⟨.disconnect, s, SessionCall.disconnect.perform (d.network settings) s⟩ := by
  have hidle := (leaves_disconnect settings d s).not_isConnected rfl
  cases hlive : s.world.link.live with
  | none =>
    have hdisconnect := Network.disconnect_of_idle (n := d.network settings) hlive
    rw [hdisconnect] at hidle
    rw [SessionCall.perform, bind_of_ok hdisconnect]
    refine .disconnected (fun session h => ?_) hidle
    rw [hlive] at h
    cases h
  | some session =>
    -- the driver is asked to close the session once it has been noted that it is
    let detached : Run (Ledger σ) := (d.network settings).detached s
    let noted : Run (Ledger σ) :=
      { detached with world := { detached.world with closed := s.world.closed ++ [session] } }
    cases hclose : d.close session s.world.outer with
    | ok u w =>
      obtain ⟨t, ht⟩ := Ledger.onOuter_returns (s := noted) hclose
      obtain ⟨t', hdisconnect⟩ := Network.exists_disconnect (n := d.network settings) hlive ht
      rw [hdisconnect] at hidle
      rw [SessionCall.perform, bind_of_ok hdisconnect]
      refine .disconnected (fun session' h => ?_) hidle
      rw [hlive] at h
      cases h
      exact ⟨w, hclose⟩
    | error e w =>
      obtain ⟨t, ht⟩ := Ledger.onOuter_raises (s := noted) hclose
      have hdisconnect := Network.disconnect_of_error (n := d.network settings) hlive ht
      rw [hdisconnect] at hidle
      rw [SessionCall.perform, bind_of_error hdisconnect]
      exact .raised hlive hclose hidle

/-- Inside a loop disconnecting returns. -/
theorem contained_disconnectLater :
    SessionTurn.IsContained d.close
      ⟨.disconnectLater, s, SessionCall.disconnectLater.perform (d.network settings) s⟩ := by
  have hidle := (leaves_disconnectLater settings d s).not_isConnected rfl
  obtain ⟨t, ht⟩ := (d.network settings).exists_disconnectLater s
  rw [ht] at hidle
  rw [SessionCall.perform, bind_of_ok ht]
  exact .disconnectedLater hidle

/-- The loop notes what closing a session raises. -/
theorem contained_closeNext :
    SessionTurn.IsContained d.close
      ⟨.closeNext, s, SessionCall.closeNext.perform (d.network settings) s⟩ := by
  obtain ⟨t, ht⟩ := (d.network settings).exists_closeNext s
  rw [SessionCall.perform, bind_of_ok ht]
  exact .closed

/-- Every call is contained. -/
theorem contained_perform (hping : RaisesTransport (d.ping settings)) (call : SessionCall) :
    SessionTurn.IsContained d.close ⟨call, s, call.perform (d.network settings) s⟩ := by
  cases call with
  | connect => exact contained_connect settings s hping
  | disconnect => exact contained_disconnect settings s
  | disconnectLater => exact contained_disconnectLater settings s
  | closeNext => exact contained_closeNext settings s
  | detach => exact .detached Bool.false_ne_true
  | attach session => exact .attached rfl

/-! ### Many calls -/

theorem contained_sessionTurns (hping : RaisesTransport (d.ping settings)) (calls : List SessionCall) :
    ∀ turn ∈ sessionTurns (d.network settings) calls s, turn.IsContained d.close := by
  induction calls generalizing s with
  | nil => exact nofun
  | cons call calls ih =>
    intro turn hturn
    rcases List.mem_cons.1 hturn with rfl | hturn
    · exact contained_perform settings s hping call
    · exact ih _ turn hturn

end

/-! ## Top theorems -/

/-- Whatever is done about the connection of a backend, in whatever order, and whatever the driver raises
when it asks the server, hangs up or closes a session: connecting comes to null and a live session or to
a failure of the backend and none, and raises only over an error whose message cannot be written; and
disconnecting always leaves no live session.  It returns always inside a loop, and outside one unless
closing the live session raises. -/
theorem driver_failures_contained (settings : Settings) (d : Driver σ)
    (ask hangUp : Settings → σ → Reply σ Unit) (calls : List SessionCall) (s : Run (Ledger σ))
    (hask : RaisesTransport (ask settings)) (hhangUp : RaisesTransport (hangUp settings)) :
    ∀ turn ∈ sessionTurns ((d.probing ask hangUp).network settings) calls s,
      turn.IsContained d.close :=
  contained_sessionTurns settings s (raises_probing settings hask hhangUp) calls

namespace Unsteady

/-- The error of a lost connection. -/
def lost : Fault := .foreign .driverConnection (some (.text "Connection lost")) 0

/-- The connection is lost when the server is asked for the first time; the world counts how often it has
been asked. -/
def ask (_ : Settings) (n : Nat) : Reply Nat Unit := if n = 0 then .error lost 1 else .ok () (n + 1)

/-- The connection is lost when the server has been asked twice. -/
def hangUp (_ : Settings) (n : Nat) : Reply Nat Unit := if n = 2 then .error lost 3 else .ok () n

/-- No session can be closed. -/
def driver : Driver Nat where
  ping := fun _ n => .ok () n
  prepare := fun _ n => n
  send := fun _ n => (.cancelled, n)
  close := fun _ n => .error lost n

/-- The network of the driver. -/
def network : Network (Ledger Nat) := (driver.probing ask hangUp).network .default

/-- Connecting succeeds at the third try; one session is closed inside a loop, the next one outside. -/
def calls : List SessionCall :=
  [.connect, .connect, .connect, .disconnectLater, .closeNext, .connect, .disconnect, .disconnect]

/-- Nothing has been asked or opened. -/
def begun : Run (Ledger Nat) := .start ⟨0, .idle, []⟩

/-- The failure of connecting. -/
def failure : Fault := .store { Fault.make .backend "ConnectionError: Connection lost" with
  context := { Context.empty with
    backend := .text Network.name
    extra := [("host", .text network.settings.host), ("port", .int network.settings.port)] }
  cause := some lost }

end Unsteady

/-- Each time the connection is lost, but for the session that is closed outside a loop, the caller gets
a result. -/
theorem unsteady_contained :
    RaisesTransport (Unsteady.ask .default) ∧ RaisesTransport (Unsteady.hangUp .default) ∧
      (∀ turn ∈ sessionTurns Unsteady.network Unsteady.calls Unsteady.begun,
        turn.IsContained Unsteady.driver.close) ∧
      (sessionTurns Unsteady.network Unsteady.calls Unsteady.begun).map SessionTurn.answer =
        [.ok (some (.error Unsteady.failure)), .ok (some (.error Unsteady.failure)),
          .ok (some (.ok .null)), .ok none, .ok none, .ok (some (.ok .null)), .error Unsteady.lost,
          .ok none] := by
  have hask : RaisesTransport (Unsteady.ask .default) := by
    intro n e t h
    unfold Unsteady.ask at h
    split at h
    · cases h; rfl
    · cases h
  have hhangUp : RaisesTransport (Unsteady.hangUp .default) := by
    intro n e t h
    unfold Unsteady.hangUp at h
    split at h
    · cases h; rfl
    · cases h
  exact ⟨hask, hhangUp, driver_failures_contained .default Unsteady.driver _ _ Unsteady.calls
    Unsteady.begun hask hhangUp, rfl⟩

/-- Outside a loop a session that cannot be closed makes disconnecting raise; inside a loop no call
raises. -/
theorem closing_failure_escapes :
    Unsteady.lost.isTransport = true ∧
      (∃ turn ∈ sessionTurns Unsteady.network [.connect, .disconnect]
          (.start ⟨3, .idle, []⟩),
        turn.call = .disconnect ∧ turn.answer = .error Unsteady.lost) ∧
      ∀ turn ∈ sessionTurns Unsteady.network [.connect, .disconnectLater, .closeNext]
        (.start ⟨3, .idle, []⟩), ∃ a, turn.answer = .ok a := by
  refine ⟨rfl, ⟨_, List.mem_cons_of_mem _ (List.mem_cons_self ..), rfl, rfl⟩, fun turn hturn => ?_⟩
  simp only [sessionTurns, List.mem_cons, List.not_mem_nil, or_false] at hturn
  rcases hturn with rfl | rfl | rfl
  · exact ⟨_, rfl⟩
  · exact ⟨_, rfl⟩
  · exact ⟨_, rfl⟩

end CasStore
