import CasStore.Program.Command
import CasStore.Run

/-!
# Backends

A backend carries out commands.  It may be disconnected, and carrying out a command may change the world
and may raise.  `Backend.dispatch` notes a command before it is carried out, and makes a result of an
error raised on the way.  To do that it writes the message of the error, which may raise itself.
-/

namespace CasStore

/-- What carries out commands on a world of type `σ`. -/
structure Backend (σ : Type) where
  name : String
  isConnected : Call (Run σ) Bool
  perform : Command → Call (Run σ) LooseResult

namespace Backend

variable {σ : Type}

/-- Carries out `c`; an error raised on the way becomes its result. -/
def dispatch (b : Backend σ) (c : Command) : Call (Run σ) LooseResult := do
  Run.note "interpreter.command" .debug (("backend", .text b.name) :: c.summary)
  (b.perform c).recover fun e => do
    let text ← Call.ofExcept e.written
    Run.note "interpreter.backend_raised" .warning
      (("backend", .text b.name) :: ("error", .text text) :: c.summary)
    return .inl (.error (← Call.ofExcept (e.asStore (("backend", .text b.name) :: c.summary))))

/-- The error of work begun while the backend is disconnected. -/
def disconnected (b : Backend σ) : Fault := Fault.notConnected.within [("backend", .text b.name)]

/-- Begins work only if the backend is connected. -/
def whenConnected (b : Backend σ) (work : Call (Run σ) LooseResult) : Call (Run σ) LooseResult := do
  if ← b.isConnected then work
  else
    Run.note "interpreter.not_connected" .warning [("backend", .text b.name)]
    return .inl (.error b.disconnected)

/-! ## Lemmas -/

theorem hasMessage_disconnected (b : Backend σ) : b.disconnected.hasMessage = true :=
  (Fault.hasMessage_within ..).trans (Fault.hasMessage_of_text rfl)

end Backend

end CasStore
