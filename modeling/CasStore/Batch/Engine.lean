import CasStore.Backend
import CasStore.Program
import CasStore.Program.Job

/-!
# The batch engine

A batch runs over its items strictly one at a time.  Each pulled item succeeds or is recorded as a
failure at its position; after a failure the policy says whether to go on.

    every pulled item adds exactly one success or one failure        (Batch.createOne)
    what is not pulled stays for the next run of a lazy sequence     (Batch.drain)
-/

namespace CasStore.Batch

variable {σ : Type}

/-- A job that comes to a key, and the text of the program that it was made of. -/
structure KeyJob (σ : Type) where
  job : Job σ
  shown : Except Fault String

/-- Runs a job, if the backend is connected. -/
def execute (b : Backend σ) (j : Job σ) : Call (Run σ) LooseResult := b.whenConnected j.run

/-- An item that is neither a failure nor content to create; `shown` is its text. -/
def malformed (shown : String) : Fault :=
  .decode s!"Batch item must be Ok((program, content)) or Err, got {shown}" none

/-- The error of a key program that came to what is no key; `e` says why it is none. -/
def invalidKey (e : Fault) : Except Fault Fault :=
  e.written.map fun text => .decode s!"Invalid key from key program: {text}" (some e)

/-- The item at `index` failed.  Its record is written with the message of the cause, which may raise. -/
def failure (index : Int) (cause : Fault) : Call (Run σ) (Outcome Fault) := fun s =>
  match cause.written with
  | .ok _ =>
    let (cause, s) := Run.marking cause s
    .ok (.failure index cause) s
  | .error e => .error e s

/-- The failure of an item that is neither a failure nor content to create.  Where its text cannot be
written, writing it raises. -/
def malformedItem (index : Int) (shown : Except Fault String) : Call (Run σ) (Outcome Fault) := do
  failure index (malformed (← Call.ofExcept shown))

/-- Carries out the creation of one item, under the key its program came to; `shown` is the item's
text. -/
def createRecord (b : Backend σ) (index : Int) (creation : Key → Job σ) (shown : Except Fault String)
    (key : LooseResult) : Call (Run σ) (Outcome Fault) :=
  match key with
  | .inr v => throw (Fault.noPart v "flat_map")
  | .inl (.error e) => failure index e
  | .inl (.ok raw) =>
    match Key.ofValue raw with
    | .error e => do failure index (← Call.ofExcept (invalidKey e))
    | .ok k => do
      match ← execute b (creation k) with
      | .inl (.ok _) => return .success index
      | .inl (.error e) => failure index e
      | .inr _ => malformedItem index shown

/-- What is run where `v` stands in place of a program. -/
def rootless (v : Value) : Job σ := .mk (throw (Fault.noPart v "root")) []

/-- A success as shown. -/
def shownSuccess (shown : Except Fault String) : Except Fault String :=
  shown.map fun text => s!"Ok({text})"

/-- What one item comes to.  A pair that does not begin with a program is run like one, and raises. -/
def createOne (b : Backend σ) (index : Int) : Item (KeyJob σ) → Call (Run σ) (Outcome Fault)
  | .failed cause => failure index cause
  | .record key content => do
    let shown := shownSuccess (key.shown.map fun text => s!"({text}, {Text.quoted content})")
    createRecord b index (fun k => .mk (b.dispatch (.create k content)) []) shown (← execute b key.job)
  | .misfit key shown creation => do
    createRecord b index (fun k => (creation k).job) shown (← execute b key.job)
  | .loose (.list [v, w]) => do
    let shown := shownSuccess ((Value.list [v, w]).printed.mapError .ofNumeral)
    createRecord b index (fun _ => rootless v) shown (← execute b (rootless v))
  | .loose v => malformedItem index (shownSuccess (v.printed.mapError .ofNumeral))
  | .other v => malformedItem index (v.printed.mapError .ofNumeral)
  | .strange shown => malformedItem index shown

/-- How many items have been pulled: from a lazy sequence in all runs together, from any other one in
this run, which is `own`. -/
def position (source : Source (KeyJob σ) σ) (own : Nat) (s : Run σ) : Nat :=
  match source.cursor with
  | none => own
  | some c => s.pulled c

/-- `n` items of a lazy sequence have been pulled. -/
def moveTo (source : Source (KeyJob σ) σ) (n : Nat) (s : Run σ) : Run σ :=
  match source.cursor with
  | none => s
  | some c => s.setPulled c n

/-- Pulls the item at `place`.  A lazy sequence goes on behind it, and is used up when pulling raises. -/
def pull (source : Source (KeyJob σ) σ) (place : Nat) (item : σ → Reply σ (Item (KeyJob σ))) :
    Call (Run σ) (Item (KeyJob σ)) := fun s =>
  match Run.onWorld item (moveTo source (place + 1) s) with
  | .ok i s => .ok i s
  | .error e s => .error e (moveTo source source.items.length s)

/-- Runs over what is left of a source, an item at a turn; the first number bounds the turns, the second
counts those taken.  Carrying out an item may use up others of a lazy source.  Comes to the outcome, and
the position it stopped at. -/
def drain (b : Backend σ) (policy : Policy σ) (source : Source (KeyJob σ) σ) :
    Nat → Nat → Outcome Fault → Call (Run σ) (Outcome Fault × Option Int)
  | 0, _, outcome => return (outcome, none)
  | turns + 1, own, outcome => do
    let place := position source own (← get)
    match source.items[place]? with
    | none => return (outcome, none)
    | some item => do
      let step ← createOne b own (← pull source place item)
      let outcome := outcome.combine step
      match step.failures.head? with
      | none => drain b policy source turns (own + 1) outcome
      | some ⟨_, cause⟩ => do
        let text ← Call.ofExcept cause.written
        Run.note "batch.item_failed" .info [("index", .int own),
          ("error_type", .text cause.kindName), ("error", .text text)]
        if ← Run.onWorld (policy cause) then drain b policy source turns (own + 1) outcome
        else return (outcome, some own)

/-- The name of the next batch to begin. -/
def name (s : Run σ) : Value := .text (String.ofList (Text.hexDigits 12 (s.batches + 1)))

/-- Binds the name of a new batch to the journal. -/
def enter : Call (Run σ) Unit :=
  modify fun s =>
    { s with journal := s.journal.bind [("batch_id", name s)], batches := s.batches + 1 }

/-- Unbinds the name of a batch. -/
def finish (s : Run σ) : Run σ := { s with journal := s.journal.unbind ["batch_id"] }

/-- Runs a batch over what is left of its source. -/
def run (b : Backend σ) (policy : Policy σ) (source : Source (KeyJob σ) σ) :
    Call (Run σ) (Outcome Fault) := do
  enter
  Call.ensure (do
    Run.note "batch.start" .debug [("backend", .text b.name)]
    let (outcome, stoppedAt) ← drain b policy source source.items.length 0 .empty
    Run.note "batch.complete" .info
      [("succeeded", .int outcome.succeeded.toList.length), ("failed", .int outcome.failures.length),
        ("stopped_at", (stoppedAt.map Value.int).getD .null)]
    return outcome) finish

/-- Runs a batch as the root of a program: what the sequence or the policy raises becomes the result. -/
def asRoot (b : Backend σ) (policy : Policy σ) (source : Source (KeyJob σ) σ) :
    Call (Run σ) LooseResult := do
  Run.note "interpreter.command" .debug
    [("command", .text "batch_create"), ("backend", .text b.name)]
  Call.recover (do return .inl (.ok (.outcome (← run b policy source)))) fun e =>
    return .inl (.error (← Call.ofExcept (e.asStore [("command", .text "batch_create")])))

/-! ## Lemmas -/

/-- Why a value is no key can always be written. -/
theorem hasMessage_ofValue {v : Value} {e : Fault} (h : Key.ofValue v = .error e) :
    e.hasMessage = true := by
  unfold Key.ofValue at h
  split at h
  · cases h
  · split at h <;> cases h
    exact Fault.hasMessage_text ..
  · split at h <;> cases h <;> exact Fault.hasMessage_text ..

theorem invalidKey_of_ofValue {v : Value} {e : Fault} (h : Key.ofValue v = .error e) :
    invalidKey e = .ok (.decode s!"Invalid key from key program: {e.message}" (some e)) := by
  rw [invalidKey, Fault.written_of_hasMessage (hasMessage_ofValue h)]
  rfl

end CasStore.Batch
