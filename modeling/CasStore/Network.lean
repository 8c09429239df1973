import CasStore.Network.Completion
import CasStore.Network.Session
import CasStore.Network.Wire
import CasStore.Settings
import CasStore.Store.Backend

/-!
# The network backend

A backend that sends its commands over a network has at most one live session.  Connecting opens one
unless there is one, disconnecting closes it; a session may also be taken out and put back.  Whatever a
driver does while a command is carried out becomes a result.

    with no live session a command fails without reaching the driver (perform)
    inside a running loop sessions are closed later                  (disconnectLater, closeNext)
-/

namespace CasStore

/-- What the network is reached by. -/
structure Driver (σ : Type) where
  /-- Asks whether the server is there. -/
  ping : Settings → σ → Reply σ Unit
  /-- Makes ready for a session. -/
  prepare : Settings → σ → σ
  /-- Has the server carry out a request. -/
  send : Request → σ → Delivery × σ
  /-- Ends a session. -/
  close : Session → σ → Reply σ Unit

/-- The driver `d`, except that a connection of its own is made for asking the server, and closed again
whatever the answer is. -/
def Driver.probing {σ : Type} (d : Driver σ) (ask hangUp : Settings → σ → Reply σ Unit) : Driver σ :=
  { d with ping := fun settings => Call.closing (ask settings) (hangUp settings) }

/-- The live session, the number of sessions opened so far, and the sessions waiting to be closed. -/
structure Link where
  live : Option Session
  opened : Nat
  closing : List Session
  deriving DecidableEq

/-- A backend on a network: its settings, its driver, and where in the world its link is. -/
structure Network (σ : Type) where
  settings : Settings
  driver : Driver σ
  slot : Slot σ Link

namespace Link

/-- Nothing has been opened. -/
def idle : Link := ⟨none, 0, []⟩

/-- Opens a session. -/
def connect (l : Link) (bucket : String) : Link :=
  { l with live := some ⟨l.opened, bucket⟩, opened := l.opened + 1 }

end Link

namespace Network

variable {σ : Type}

/-- The name of the backend. -/
def name : String := "redis"

/-- The link at present. -/
def link (n : Network σ) : Call (Run σ) Link := return n.slot.get (← get).world

/-- Changes the link. -/
def modifyLink (n : Network σ) (f : Link → Link) : Call (Run σ) Unit :=
  modify fun s => { s with world := n.slot.set (f (n.slot.get s.world)) s.world }

/-- There is a live session. -/
def isConnected (n : Network σ) : Call (Run σ) Bool := return (← n.link).live.isSome

/-! ## Sessions -/

/-- The address of the server as entries of a context. -/
def address (n : Network σ) : Fields :=
  [("host", .text n.settings.host), ("port", .int n.settings.port)]

/-- Opens a session after a successful ping. -/
def openSession (n : Network σ) : Call (Run σ) Result := do
  modify fun s => { s with world := n.driver.prepare n.settings s.world }
  n.modifyLink (·.connect n.settings.bucketName)
  Run.note "redis.connected" .info (n.address ++ [
    ("bucket", .text n.settings.bucketName),
    ("max_connections", .int n.settings.maxConnections),
    ("computation_pool_size", .int n.settings.computationPoolSize)])
  return .ok .null

/-- Connects, unless connected.  An error of the driver or of the system becomes the result. -/
def connect (n : Network σ) : Call (Run σ) Result := do
  if ← n.isConnected then return .ok .null
  else fun s =>
    match Run.onWorld (n.driver.ping n.settings) s with
    | .ok () s => n.openSession s
    | .error e s =>
      if e.isTransport then
        (do
          let text ← Call.ofExcept e.written
          Run.note "redis.connect_failed" .warning (n.address ++ [("error", .text text)])
          let failure ← Call.ofExcept (e.wrap (("backend", .text name) :: n.address))
          return .error failure : Call (Run σ) Result) s
      else .error e s

/-- Takes the live session out. -/
def detach (n : Network σ) : Call (Run σ) (Option Session) := do
  let l ← n.link
  n.modifyLink fun l => { l with live := none }
  return l.live

/-- Puts a session in; one that is live is dropped. -/
def attach (n : Network σ) (session : Option Session) : Call (Run σ) Unit :=
  n.modifyLink fun l => { l with live := session }

/-- A session has been closed. -/
def noteClosed (session : Session) : Call (Run σ) Unit :=
  Run.note "redis.session_closed" .debug [("bucket", .text session.bucket)]

/-- The backend has been disconnected. -/
def noteDisconnected (session : Session) : Call (Run σ) Unit :=
  Run.note "redis.disconnected" .info [("bucket", .text session.bucket)]

/-- Disconnects, outside a loop: waits for the session to be closed, and raises what that raises. -/
def disconnect (n : Network σ) : Call (Run σ) Unit := do
  match ← n.detach with
  | none => return ()
  | some session => do
    Run.onWorld (n.driver.close session)
    noteClosed session
    noteDisconnected session

/-- Disconnects, inside a running loop: the session is closed later. -/
def disconnectLater (n : Network σ) : Call (Run σ) Unit := do
  match ← n.detach with
  | none => return ()
  | some session => do
    n.modifyLink fun l => { l with closing := l.closing ++ [session] }
    noteDisconnected session

/-- Closes the session that has waited longest, unless its closing is cancelled.  What goes wrong is
noted, if its message can be written. -/
def closeNext (n : Network σ) (cancelled : Bool) : Call (Run σ) Unit := do
  match (← n.link).closing with
  | [] => return ()
  | session :: rest => do
    n.modifyLink fun l => { l with closing := rest }
    if cancelled then return ()
    else fun s =>
      match Run.onWorld (n.driver.close session) s with
      | .ok () s => noteClosed session s
      | .error e s =>
        match e.written with
        | .ok text =>
          Run.note "redis.session_close_failed" .warning
            [("bucket", .text session.bucket), ("error", .text text)] s
        | .error _ => .ok () s

/-! ## Commands -/

/-- The error of a command without a live session. -/
def unreachable (c : Command) : Fault :=
  Fault.notConnected.within
    [("key", .text c.key.value), ("command", .text c.tag), ("backend", .text name)]

/-- Turns a reply into the result of a command. -/
def converter (c : Command) : Converter σ := fun reply s =>
  match Wire.result reply c with
  | .ok r => .ok (.inl r) s
  | .error e => .error e s

/-- Has a request carried out. -/
def send (n : Network σ) (r : Request) : Call (Run σ) Delivery := fun s =>
  let (d, w) := n.driver.send r s.world
  .ok d { s with world := w }

/-- Carries out a command. -/
def perform (n : Network σ) (c : Command) : Call (Run σ) LooseResult := do
  match (← n.link).live with
  | none => return .inl (.error (unreachable c))
  | some session => do
    let d ← n.send (session.request c)
    d.await ⟨some c.key.value, some c.tag⟩ (converter c)

/-- The network as a backend. -/
def backend (n : Network σ) : Backend σ := ⟨name, n.isConnected, n.perform⟩

/-- A network backend as shown. -/
def shown (n : Network σ) (l : Link) : String :=
  let state := if l.live.isSome then "connected" else "disconnected"
  s!"RedisBackend({n.settings.host}:{Numeral.text n.settings.port}, {state})"

end Network

/-! ## A server within reach -/

/-- The documents in ascending order of their names, and the last version of a bucket; numbers are given
as text, as the server keeps them. -/
def Keyspace.listing (s : Keyspace) (bucket : String) : Fields :=
  let row : String × Entry → Option (String × Document) := fun (name, e) =>
    match e with
    | .document d => some (name, d)
    | .sequence _ => none
  let docs := (s.entries.filterMap row).mergeSort fun a b => a.1 ≤ b.1
  let last : Value :=
    match s.find? (Session.qualified ⟨0, bucket⟩ Session.versionSequence) with
    | some (.sequence n) => .text (Numeral.text n)
    | _ => .null
  [("docs", .list (docs.map fun (name, d) =>
    .list [.text name, .text d.content, .text (Numeral.text d.version.number)])), ("cas", last)]

/-- What a server does with a request: a number that cannot be sent is not, and a refusal is raised. -/
def Keyspace.answer (r : Request) (s : Keyspace) : Delivery × Keyspace :=
  match r.obstacle? with
  | some p => (.raised (.ofNumeral p), s)
  | none =>
    match Script.run r s with
    | .ok v s => (.reply v, s)
    | .error e s => (.raised (.foreign .driverResponse (some (.text e.message)) 0), s)

/-- The driver of a server that lives in the world itself: it is always there. -/
def Keyspace.driver {σ : Type} (slot : Slot σ Keyspace) : Driver σ where
  ping := fun _ w => .ok () w
  prepare := fun _ w => w
  send := fun r w =>
    let (d, s) := (slot.get w).answer r
    (d, slot.set s w)
  close := fun _ w => .ok () w

end CasStore
