import CasStore.Basic
import CasStore.Journal
import CasStore.Table

/-!
# Calls and runs

A call changes a state and returns or raises; what it changed before raising stays changed.  The state
of a run holds the world that backends and the caller's functions act on, the journal, how far each lazy
item sequence has been pulled, and what errors have been marked with.
-/

namespace CasStore

/-- A call on states of type `σ` that returns an `α` or raises. -/
abbrev Call (σ α : Type) := EStateM Fault σ α

/-- What a call on `σ` comes to. -/
abbrev Reply (σ α : Type) := EStateM.Result Fault σ α

namespace Call

variable {σ α : Type}

/-- What has been computed, or raises why it cannot be. -/
def ofExcept : Except Fault α → Call σ α
  | .ok a => return a
  | .error e => throw e

/-- Runs `c`; an ordinary error goes to `handle`, an interrupt goes on. -/
def recover (c : Call σ α) (handle : Fault → Call σ α) : Call σ α := fun s =>
  match c s with
  | .ok a s => .ok a s
  | .error e s => if e.isOrdinary then handle e s else .error e s

/-- Runs `c` and then changes the state by `f`, whether `c` returns or raises. -/
def ensure (c : Call σ α) (f : σ → σ) : Call σ α := fun s =>
  match c s with
  | .ok a s => .ok a (f s)
  | .error e s => .error e (f s)

/-- Runs `c` and then `cleanup`, whether `c` returns or raises. What `cleanup` raises counts more. -/
def closing (c : Call σ α) (cleanup : Call σ Unit) : Call σ α := fun s =>
  match c s with
  | .ok a s =>
    match cleanup s with
    | .ok () s => .ok a s
    | .error e s => .error e s
  | .error e s =>
    match cleanup s with
    | .ok () s => .error e s
    | .error e s => .error e s

/-- The error of waiting inside a running loop. -/
def inLoop : Fault :=
  .foreign .runtime
    (some (.text "run() cannot be used inside a running event loop; await execute() instead")) 0

/-- Waits for `c`. Inside a running loop that is refused, since the loop would wait for itself. -/
def waiting (insideLoop : Bool) (c : Call σ α) : Call σ α := if insideLoop then throw inLoop else c

end Call

/-- The loops on which threads wait, by thread, and the number of loops made.  A thread's own loop is made
when it first waits, and it is used for as long as the thread lives. -/
structure Loops where
  ofThread : Table Nat Nat
  made : Nat

namespace Loops

/-- No thread has waited yet. -/
def empty : Loops := ⟨.empty, 0⟩

/-- The loop on which a thread waits. -/
def loopOf (l : Loops) (thread : Nat) : Nat × Loops :=
  match l.ofThread.find? thread with
  | some loop => (loop, l)
  | none => (l.made, ⟨l.ofThread.insert thread l.made, l.made + 1⟩)

theorem loopOf_again (l : Loops) (thread : Nat) :
    (l.loopOf thread).2.loopOf thread = l.loopOf thread := by
  unfold loopOf
  cases h : l.ofThread.find? thread with
  | some loop => simp only [h]
  | none => simp only [Table.find?_insert, if_true]

end Loops

/-- The state of a run. `cursors` says how many items of each lazy sequence have been pulled, `batches`
how many batches have begun, `marks` how many errors have been marked. -/
structure Run (σ : Type) where
  world : σ
  journal : Journal
  cursors : List (Nat × Nat)
  batches : Nat
  marks : Nat

namespace Run

variable {σ α : Type}

/-- The state before anything ran. -/
def start (world : σ) : Run σ := ⟨world, .empty, [], 0, 0⟩

/-- A call on the world, as a call on the run. -/
def onWorld (c : σ → Reply σ α) : Call (Run σ) α := fun s =>
  match c s.world with
  | .ok a w => .ok a { s with world := w }
  | .error e w => .error e { s with world := w }

/-- Notes an event. -/
def note (name : String) (level : Level) (fields : Fields) : Call (Run σ) Unit :=
  modify fun s => { s with journal := s.journal.note name level fields }

/-- An error that the caller's functions get to see, marked.  Errors that arise in a run are marked with
odd numbers, which leaves the even ones to callers. -/
def marking (e : Fault) (s : Run σ) : Fault × Run σ :=
  if e.serial = 0 then (e.mark (2 * s.marks + 1), { s with marks := s.marks + 1 }) else (e, s)

/-- A result, its error marked. -/
def markingResult (r : Result) (s : Run σ) : Result × Run σ :=
  match r with
  | .ok v => (.ok v, s)
  | .error e => let (e, s) := marking e s; (.error e, s)

/-- The number of items pulled from a lazy sequence. -/
def pulled (s : Run σ) (cursor : Nat) : Nat := (s.cursors.lookup cursor).getD 0

/-- `n` in the row of `cursor`. -/
def setRow (cursor n : Nat) : List (Nat × Nat) → List (Nat × Nat)
  | [] => [(cursor, n)]
  | (c, m) :: rows => if c = cursor then (cursor, n) :: rows else (c, m) :: setRow cursor n rows

/-- From now on `n` items of a lazy sequence have been pulled. -/
def setPulled (s : Run σ) (cursor n : Nat) : Run σ :=
  { s with cursors := setRow cursor n s.cursors }

/-! ## Lemmas -/

theorem marking_of_marked {e : Fault} (h : e.serial ≠ 0) (s : Run σ) : marking e s = (e, s) := by
  simp [marking, h]

theorem hasMessage_marking (e : Fault) (s : Run σ) :
    (marking e s).1.hasMessage = e.hasMessage := by
  unfold marking
  split <;> simp

theorem world_marking (e : Fault) (s : Run σ) : (marking e s).2.world = s.world := by
  unfold marking
  split <;> rfl

theorem lookup_setRow (cursor n : Nat) (rows : List (Nat × Nat)) :
    (setRow cursor n rows).lookup cursor = some n := by
  induction rows with
  | nil => simp [setRow]
  | cons r rows ih =>
    unfold setRow
    split
    · simp
    · next h =>
      have : (cursor == r.1) = false := by simpa using fun h' : cursor = r.1 => h h'.symm
      rw [show r = (r.1, r.2) from rfl, List.lookup_cons, this]
      exact ih

theorem pulled_setPulled (s : Run σ) (cursor n : Nat) : (s.setPulled cursor n).pulled cursor = n := by
  simp [pulled, setPulled, lookup_setRow]

end Run

end CasStore
