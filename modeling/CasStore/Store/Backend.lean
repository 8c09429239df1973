import CasStore.Backend
import CasStore.Store
import CasStore.Program.Execute

/-!
# The memory backend

A store kept in memory carries out commands and is always connected.  A refusal becomes an error, except
where a number has too many digits: that is raised.

`executeWithState` runs a program on a store that goes on from a given map and answers with the map from
which the next run goes on.
-/

namespace CasStore

/-- A part of a state. -/
structure Slot (σ τ : Type) where
  get : σ → τ
  set : τ → σ → σ

/-- The whole state. -/
def Slot.whole {σ : Type} : Slot σ σ := ⟨id, fun s _ => s⟩

namespace Refusal

/-- The error of a command that is refused. -/
def fault (c : Command) : Refusal → Fault
  | .absent => .notFound c.key.value (some c.tag)
  | .present => .alreadyExists c.key.value
  | .stale expected actual => .versionConflict c.key.value expected actual
  | .notCounter => .notCounter c.key.value
  | .numeral p => .ofNumeral p

/-- A number of too many digits is raised, every other refusal is a result. -/
def isRaised : Refusal → Bool
  | .numeral _ => true
  | _ => false

theorem hasMessage_fault (c : Command) (r : Refusal) : (r.fault c).hasMessage = true := by
  cases r with
  | numeral p => exact (ordinary_ofNumeral p).2
  | _ => exact (Fault.hasMessage_within ..).trans (Fault.hasMessage_of_text rfl)

end Refusal

namespace Store

variable {σ : Type}

/-- What a command on the store in `slot` comes to. -/
def perform (slot : Slot σ Store) (c : Command) : Call (Run σ) LooseResult := fun s =>
  match (slot.get s.world).apply c with
  | .ok (a, store) => .ok (.inl (.ok a.toValue)) { s with world := slot.set store s.world }
  | .error r => if r.isRaised then .error (r.fault c) s else .ok (.inl (.error (r.fault c))) s

/-- The backend over the store in `slot`. -/
def backend (slot : Slot σ Store) : Backend σ := ⟨"memory", pure true, perform slot⟩

/-- A store as shown. -/
def shown (s : Store) : String := s!"InMemoryBackend(documents={s.docs.size})"

/-- Runs a program on a store that goes on from `start`; the start map itself stays as it is. -/
def executeWithState (slot : Slot σ Store) (p : Program σ) (start : StartMap) :
    Call (Run σ) (LooseResult × StartMap) := do
  modify fun s => { s with world := slot.set (Store.ofStart start) s.world }
  let r ← p.execute (backend slot)
  return (r, (slot.get (← get).world).snapshot)

end Store

end CasStore
