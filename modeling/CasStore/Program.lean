import CasStore.Program.Command
import CasStore.Program.Pipeline

/-!
# Programs

A program describes work without doing any: a root, which is a known value or error, a command, or a
batch of creations, and stages that say how to go on.  Programs are built by the functions below and
composed by adding stages; building one touches no store.

Programs are well-founded trees (`Pipeline`), so none runs for ever, and a source of a batch is a finite
list: what it yields may depend on the world when it is pulled, but how many items it has at most is known
beforehand.  Sources that never end are not among them.
-/

namespace CasStore

/-- One element of the sequence a batch runs over. -/
inductive Item (π : Type)
  /-- An item known to have failed before it was tried. -/
  | failed (cause : Fault)
  /-- Content to be created under the key that a program will name. -/
  | record (key : π) (content : String)
  /-- The same with something in place of the content that is no text.  Stores of texts cannot tell what
  comes of creating a document of that: `creation` does. -/
  | misfit (key : π) (shown : Except Fault String) (creation : Key → π)
  /-- A success that holds some other value. -/
  | loose (v : Value)
  /-- No result at all. -/
  | other (v : Value)
  /-- A success, or no result at all, that is or holds something else than values, known by its text. -/
  | strange (shown : Except Fault String)

/-- A sequence of items, each made by a call when it is pulled.  A lazy sequence is used up as it is
pulled, and its cursor names the count of what has been pulled. -/
structure Source (π σ : Type) where
  cursor : Option Nat
  items : List (σ → EStateM.Result Fault σ (Item π))

/-- Where a program starts. -/
inductive Root (σ : Type) : Type
  | pure (v : Value)
  | fail (e : Fault)
  | command (c : Command)
  | batch (source : Source (Pipeline (Root σ) σ) σ) (policy : Fault → σ → EStateM.Result Fault σ Bool)
  | unsupported (name : String)

/-- A description of work whose functions act on a world of type `σ`. -/
abbrev Program (σ : Type) := Pipeline (Root σ) σ

/-- Says after each failure of a batch, from its cause, whether to go on. -/
abbrev Policy (σ : Type) := Fault → σ → EStateM.Result Fault σ Bool

namespace Policy

/-- Go on whatever happens. -/
def always {σ : Type} : Policy σ := fun _ s => .ok true s

/-- Stop at the first failure. -/
def stop {σ : Type} : Policy σ := fun _ s => .ok false s

end Policy

namespace Program

variable {σ : Type}

/-! ## Building -/

/-- Succeeds with `v`. -/
def pure (v : Value) : Program σ := .mk (.pure v) []

/-- Fails with `e`. -/
def fail (e : Fault) : Program σ := .mk (.fail e) []

/-- Comes to `r`. -/
def ofResult : Result → Program σ
  | .ok v => pure v
  | .error e => fail e

/-- Comes to a result; a value that is none is refused. -/
def ofResult? : LooseResult → Except Fault (Program σ)
  | .inl r => .ok (ofResult r)
  | .inr v => .error (.wrongType s!"Expected Ok or Err, got {v.typeName}")

/-- Carries out a command. -/
def command (c : Command) : Program σ := .mk (.command c) []

/-- Creates a document for each item, as long as the policy says to go on after failures. -/
def batch (source : Source (Program σ) σ) (policy : Policy σ) : Program σ :=
  .mk (.batch source policy) []

/-- Transforms the value. -/
def map (p : Program σ) (f : Value → σ → Reply σ Value) : Program σ := p.append (.map f)

/-- Chooses the next program from the value. -/
def andThen (p : Program σ) (f : Value → σ → Reply σ (Next (Program σ))) : Program σ :=
  p.append (.andThen f)

/-- Transforms the error. -/
def mapErr (p : Program σ) (f : Fault → σ → Reply σ Fault) : Program σ := p.append (.mapErr f)

/-- Chooses the next program from the error. -/
def orElse (p : Program σ) (f : Fault → σ → Reply σ (Next (Program σ))) : Program σ :=
  p.append (.orElse f)

/-- Goes on with `q`, whatever the value. -/
def followedBy (p q : Program σ) : Program σ := p.andThen fun _ s => .ok (.program q) s

/-- `v` at the end of a list of values. -/
def push (acc v : Value) : Value :=
  match acc with
  | .list vs => .list (vs ++ [v])
  | acc => acc

/-- One program of a sequence, adding its value to those collected so far. -/
def collect (acc : Value) (p : Program σ) : Program σ := p.map fun v s => .ok (push acc v) s

/-- Runs programs in order and collects their values, up to the first failure. -/
def sequence (ps : List (Program σ)) : Program σ :=
  ps.foldl (fun q p => q.andThen fun acc s => .ok (.program (collect acc p)) s) (pure (.list []))

/-! ## Looking at programs -/

/-- The name of what a program starts with, if that is a request. -/
def tag? (p : Program σ) : Option String :=
  match p.root with
  | .command c => some c.tag
  | .batch _ _ => some "batch_create"
  | _ => none

/-- What a program starts with, as fields of a log; a known result needs none. -/
def summary? (p : Program σ) : Except Fault (Option Fields) :=
  match p.root with
  | .pure _ | .fail _ => .ok none
  | .command c => .ok (some c.summary)
  | .batch _ _ => .ok (some [("command", .text "batch_create")])
  | .unsupported name =>
    .error (.foreign .noAttribute (some (.text s!"'{name}' object has no attribute 'tag'")) 0)

/-- The root of a program as shown. A batch shows its name only. -/
def shownRoot (p : Program σ) : String :=
  match p.root with
  | .pure v => s!"Pure(value={v.shown})"
  | .fail e => s!"Fail(error={e.shown})"
  | .command c => c.shown
  | .batch _ _ => "BatchCreate"
  | .unsupported name => name

/-- A program as shown: its root and the kinds of its stages. -/
def shown (p : Program σ) : String :=
  let stages := String.intercalate ", " (p.stages.map fun st => st.kind.name)
  if stages = "" then s!"Program({p.shownRoot})" else s!"Program({p.shownRoot}, {stages})"

/-- All numbers in a program as shown can be written. -/
def isPrintable (p : Program σ) : Bool :=
  match p.root with
  | .pure v => v.isPrintable
  | .fail e => e.isPrintable
  | .command c => c.isPrintable
  | .batch _ _ | .unsupported _ => true

/-- A program as shown, unless it holds a number that is too long to be written. -/
def printed (p : Program σ) : Except Fault String :=
  if p.isPrintable then .ok p.shown else .error (.ofNumeral .tooLarge)

/-- The two programs start alike. Neither batches nor unsupported roots are ever alike. -/
def sameRoot (p q : Program σ) : Bool :=
  match p.root, q.root with
  | .pure v, .pure w => v.equal w
  | .fail e, .fail f => e.same f
  | .command c, .command d => c == d
  | _, _ => false

end Program

namespace Item

variable {σ : Type}

/-- A success that is a program where a program and content should be. -/
def unpaired (p : Program σ) : Item (Program σ) := .strange (p.printed.map fun text => s!"Ok({text})")

/-- A program where a result should be. -/
def bare (p : Program σ) : Item (Program σ) := .strange p.printed

end Item

end CasStore
