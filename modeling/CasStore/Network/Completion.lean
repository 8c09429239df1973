import CasStore.Run

/-!
# Completions

A driver reports what it does by signals: values, and then that it has finished, failed or been
cancelled.  A completion turns the signals into one result, or whatever the value is converted to.  It is
answered by the first of the three final signals, and nothing answers it twice.

Signals that arrive beside the loop that waits for the answer put their results into a queue; the loop
takes them from it when it turns.

    an answer never changes                                          (answer_turn, answer_report)

Errors become results by messages that quote theirs.  Where a message cannot be written the signal raises
and leaves the completion as it was.
-/

namespace CasStore

/-- What a driver reports. -/
inductive Signal
  | value (v : Value)
  | finished
  | failed (e : Fault)
  | cancelled

/-- Where a signal arrives: on the loop that waits for the answer, or beside it. -/
inductive Place
  | onLoop
  | besideLoop
  deriving DecidableEq, Repr

/-- What is asked for, if it is known: it goes into the context of every error. -/
structure Subject where
  key : Option String
  command : Option String

/-- The first value reported, the answer, and the results that wait for the loop, oldest first. -/
structure Completion where
  value : Option Value
  answer : Option LooseResult
  queue : List LooseResult

/-- What turns the first value into a result. -/
abbrev Converter (σ : Type) := Value → σ → Reply σ LooseResult

namespace Subject

/-- The entries of a context. -/
def entries (t : Subject) : Fields :=
  [("key", Fault.optionText t.key), ("command", Fault.optionText t.command)]

/-- The key, or a question mark where none or an empty one is known. -/
def keyText (t : Subject) : String :=
  match t.key with
  | none => "?"
  | some k => if k = "" then "?" else k

/-- A driver finished without a value. -/
def absent (t : Subject) : Fault := .notFound t.keyText t.command

/-- The value cannot be converted; `e` says why, and its message is written to say so. -/
def unreadable (t : Subject) (e : Fault) : Except Fault Fault :=
  e.written.map fun text =>
    (Fault.decode s!"Cannot decode driver reply: {text}" (some e)).within t.entries

/-- What a failure is wrapped around: of an interrupt only its message is kept. -/
def cause (e : Fault) : Except Fault Fault :=
  if e.isOrdinary then .ok e else e.written.map fun text => .foreign .runtime (some (.text text)) 0

/-- A driver failed. -/
def failure (t : Subject) (e : Fault) : Except Fault Fault := do (← cause e).wrap t.entries

/-- The command, or a word for none. -/
def commandText (t : Subject) : String := t.command.getD "None"

/-- A driver was cancelled. -/
def cancellation (t : Subject) : Fault :=
  (Fault.store (Fault.make .backend s!"Operation cancelled: {t.commandText}")).within t.entries

/-! ### Errors that can be said -/

variable (t : Subject) {e : Fault}

theorem unreadable_of_hasMessage (h : e.hasMessage = true) :
    t.unreadable e = .ok ((Fault.decode s!"Cannot decode driver reply: {e.message}" (some e)).within
      t.entries) := by
  rw [Subject.unreadable, Fault.written_of_hasMessage h]
  rfl

theorem unreadable_eq_error (h : e.hasMessage = false) :
    t.unreadable e = .error (.ofNumeral .tooLarge) := by
  rw [Subject.unreadable, Fault.written_of_not_hasMessage h]
  rfl

theorem failure_of_ordinary (ho : e.isOrdinary = true) (h : e.hasMessage = true) :
    t.failure e = .ok ((Fault.store { Fault.make .backend s!"{e.kindName}: {e.message}" with
      cause := some e }).within t.entries) := by
  rw [Subject.failure, Subject.cause, if_pos ho]
  exact Fault.wrap_of_hasMessage h _

theorem failure_of_interrupt (ho : e.isOrdinary = false) (h : e.hasMessage = true) :
    t.failure e = (Fault.foreign .runtime (some (.text e.message)) 0).wrap t.entries := by
  rw [Subject.failure, Subject.cause, if_neg (by rw [ho]; exact Bool.false_ne_true),
    Fault.written_of_hasMessage h]
  rfl

/-- A failure whose message can be written has an error. -/
theorem exists_failure (h : e.hasMessage = true) : ∃ f, t.failure e = .ok f := by
  cases ho : e.isOrdinary with
  | true => exact ⟨_, failure_of_ordinary t ho h⟩
  | false =>
    rw [failure_of_interrupt t ho h, Fault.wrap_of_hasMessage (Fault.hasMessage_text ..)]
    exact ⟨_, rfl⟩

theorem failure_eq_error (h : e.hasMessage = false) : t.failure e = .error (.ofNumeral .tooLarge) := by
  have hwritten := Fault.written_of_not_hasMessage h
  rw [Subject.failure, Subject.cause]
  cases e.isOrdinary with
  | true =>
    show e.wrap t.entries = _
    rw [Fault.wrap, hwritten]
    rfl
  | false =>
    rw [hwritten]
    rfl

end Subject

namespace Completion

variable {σ : Type}

/-! ## Algorithm -/

/-- Nothing is reported yet. -/
def empty : Completion := ⟨none, none, []⟩

/-- There is an answer. -/
def isDone (c : Completion) : Bool := c.answer.isSome

/-- The answer, if there is none yet. -/
def settle (c : Completion) (r : LooseResult) : Completion :=
  match c.answer with
  | none => { c with answer := some r }
  | some _ => c

/-- A result: the answer at once on the loop, and in the queue beside it. -/
def resolve (c : Completion) (place : Place) (r : LooseResult) : Completion :=
  match place with
  | .onLoop => c.settle r
  | .besideLoop => { c with queue := c.queue ++ [r] }

/-- The loop takes the results from the queue, oldest first. -/
def turn (c : Completion) : Completion :=
  { c.queue.foldl settle c with queue := [] }

/-- Only the first value that is not null is kept. -/
def keep (c : Completion) (v : Value) : Completion :=
  match v, c.value with
  | .null, _ => c
  | _, some _ => c
  | v, none => { c with value := some v }

/-- The result of a driver that has finished. -/
def conclude (c : Completion) (t : Subject) (convert : Converter σ) : σ → Reply σ LooseResult := fun s =>
  match c.value with
  | none => .ok (.inl (.error t.absent)) s
  | some v =>
    match convert v s with
    | .ok r s => .ok r s
    | .error e s =>
      if e.isOrdinary then
        match t.unreadable e with
        | .ok f => .ok (.inl (.error f)) s
        | .error e => .error e s
      else .error e s

/-- Takes a signal.  Once there is an answer, signals do nothing. -/
def report (c : Completion) (t : Subject) (convert : Converter σ) (place : Place) (signal : Signal) :
    σ → Reply σ Completion := fun s =>
  if c.isDone then .ok c s
  else
    match signal with
    | .value v => .ok (c.keep v) s
    | .finished =>
      match c.conclude t convert s with
      | .ok r s => .ok (c.resolve place r) s
      | .error e s => .error e s
    | .failed e =>
      match t.failure e with
      | .ok f => .ok (c.resolve place (.inl (.error f))) s
      | .error e => .error e s
    | .cancelled => .ok (c.resolve place (.inl (.error t.cancellation))) s

/-! ## Lemmas -/

theorem answer_settle {c : Completion} {r : LooseResult} (h : c.answer = some r) (r' : LooseResult) :
    c.settle r' = c := by
  simp [settle, h]

theorem answer_foldl_settle {r : LooseResult} (rs : List LooseResult) {c : Completion}
    (h : c.answer = some r) : rs.foldl settle c = c := by
  induction rs with
  | nil => rfl
  | cons r' rs ih => rw [List.foldl_cons, answer_settle h, ih]

theorem answer_turn {c : Completion} {r : LooseResult} (h : c.answer = some r) :
    c.turn.answer = some r := by
  simp [turn, answer_foldl_settle _ h, h]

theorem answer_report {c : Completion} {r : LooseResult} (h : c.answer = some r) (t : Subject)
    (convert : Converter σ) (place : Place) (signal : Signal) (s : σ) :
    c.report t convert place signal s = .ok c s := by
  simp [report, isDone, h]

end Completion

/-! ## Waiting for a driver -/

/-- How the work of a driver ends, if it does. -/
inductive Delivery
  | reply (v : Value)
  | raised (e : Fault)
  | cancelled
  | endless

/-- The signals that tell how the work of a driver has ended. -/
def Delivery.signals : Delivery → List Signal
  | .reply v => [.value v, .finished]
  | .raised e => [.failed e]
  | .cancelled => [.cancelled]
  | .endless => []

/-- Delivers signals in order. -/
def Completion.reportAll {σ : Type} (t : Subject) (convert : Converter σ) (place : Place) :
    Completion → List Signal → σ → Reply σ Completion
  | c, [], s => .ok c s
  | c, signal :: signals, s =>
    match c.report t convert place signal s with
    | .ok c s => Completion.reportAll t convert place c signals s
    | .error e s => .error e s

/-- Tells a new completion how the work of a driver has ended. -/
def Delivery.tell {σ : Type} (d : Delivery) (t : Subject) (convert : Converter σ) :
    Call (Run σ) Completion := do
  if let .raised e := d then
    let text ← Call.ofExcept e.written
    Run.note "bridge.driver_error" .debug (t.entries ++ [("error", .text text)])
  Run.onWorld (Completion.empty.reportAll t convert .onLoop d.signals)

/-- The error of a wait that is given up. -/
def Fault.abandoned : Fault := .foreign .cancelled none 0

/-- What becomes of the work of a driver when the wait for it is given up: what has not ended is
cancelled. -/
def Delivery.givenUp : Delivery → Delivery
  | .endless => .cancelled
  | d => d

/-- Waits for the work of a driver and makes a result of how it ends.  What is raised while the completion
is told stays with the loop.  Without an answer the wait goes on until it is given up. -/
def Delivery.await {σ : Type} (d : Delivery) (t : Subject) (convert : Converter σ) :
    Call (Run σ) LooseResult := do
  let c ← (d.tell t convert).recover fun _ => return .empty
  match c.answer with
  | some r => return r
  | none => throw Fault.abandoned

end CasStore
