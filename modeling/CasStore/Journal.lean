import CasStore.Fault

/-!
# The journal

What happens is noted as events, each with a name, a level and named fields.  Fields that belong to all
events of a stretch of work are bound to the journal while it lasts; `Journal.note` puts the bound
fields of the moment into the event.

    (j.note e).events = j.events ++ [e with the fields bound in j]   (events_note)
-/

namespace CasStore

/-- How grave an event is. -/
inductive Level
  | debug
  | info
  | warning
  | error
  | critical
  deriving DecidableEq, Repr

/-- The name of a level. -/
def Level.name : Level → String
  | .debug => "debug"
  | .info => "info"
  | .warning => "warning"
  | .error => "error"
  | .critical => "critical"

/-- The level of a name. -/
def Level.ofName? (name : String) : Option Level :=
  [debug, info, warning, error, critical].find? (·.name == name)

/-- Higher ranks are graver. -/
def Level.rank : Level → Nat
  | .debug => 10
  | .info => 20
  | .warning => 30
  | .error => 40
  | .critical => 50

/-- Named values, in the order given. -/
abbrev Fields := List (String × Value)

/-- Something that happened: the fields it names itself, and those bound at the time. -/
structure Event where
  name : String
  level : Level
  fields : Fields
  bound : Fields

/-- The events so far, newest first, the fields bound at present, for each open scope the names it has
bound, innermost first, and the fields bound on the loop that waits for programs, once it has begun. -/
structure Journal where
  newestFirst : List Event
  bound : Fields
  scopes : List (List String)
  loop : Option Fields

namespace Journal

/-! ## Algorithm -/

/-- The journal in which nothing is noted yet. -/
def empty : Journal := ⟨[], [], [], none⟩

/-- The events in the order they happened. -/
def events (j : Journal) : List Event := j.newestFirst.reverse

/-- Notes an event. -/
def note (j : Journal) (name : String) (level : Level) (fields : Fields) : Journal :=
  { j with newestFirst := ⟨name, level, fields, j.bound⟩ :: j.newestFirst }

/-- Binds fields; a field that is bound already is replaced. -/
def bind (j : Journal) (fields : Fields) : Journal :=
  { j with bound := fields.foldl (fun b (name, v) => Context.setEntry name v b) j.bound }

/-- The journal from here on: what is bound stays bound. -/
def fresh (j : Journal) : Journal := { j with newestFirst := [] }

/-- Unbinds the fields of these names, whoever bound them. -/
def unbind (j : Journal) (names : List String) : Journal :=
  { j with bound := j.bound.filter fun (name, _) => !names.contains name }

/-- Opens a scope in which fields are bound. -/
def enter (j : Journal) (fields : Fields) : Journal :=
  { j.bind fields with scopes := fields.map (·.1) :: j.scopes }

/-- Closes the innermost scope: the fields of its names are unbound. -/
def leave (j : Journal) : Journal :=
  { j.unbind (j.scopes.headD []) with scopes := j.scopes.tail }

/-- Notes an event inside a scope in which fields are bound, and one after it.  What is bound outside stays
as it is. -/
def noteScoped (j : Journal) (fields : Fields) (name : String) (level : Level) : Journal :=
  let inner := (j.enter fields).note name level []
  let after := inner.leave.note name level []
  { after with bound := j.bound }

/-- The journal on the loop.  The loop begins with the fields bound at that time; what is bound outside
later does not reach it. -/
def onLoop (j : Journal) : Journal := { j with bound := j.loop.getD j.bound }

/-- The journal back outside, after `inside` was kept on the loop. -/
def offLoop (j inside : Journal) : Journal := { inside with bound := j.bound, loop := some inside.bound }

/-! ## Lemmas -/

theorem events_note (j : Journal) (name : String) (level : Level) (fields : Fields) :
    (j.note name level fields).events = j.events ++ [⟨name, level, fields, j.bound⟩] := by
  simp [events, note]

end Journal

end CasStore
