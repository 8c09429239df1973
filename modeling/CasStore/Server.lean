import CasStore.Basic
import CasStore.Document
import CasStore.Table

/-!
# A server's key space

The server keeps entries by name: a sequence of numbers, or a document.  Its calls act on one name each
and refuse to treat an entry of one kind as one of the other.

    a call that raises leaves the entries as they are                (next, put)
-/

namespace CasStore

/-- What is kept under a name: the last number of a sequence, or a document. -/
inductive Entry
  | sequence (last : Int)
  | document (d : Document)
  deriving DecidableEq

/-- Entries by name. -/
abbrev Keyspace := Table String Entry

/-- Why the server refuses a call: the entry is of the other kind. -/
inductive ServerRefusal
  | wrongKind
  deriving DecidableEq, Repr

/-- The wording of a refusal. -/
def ServerRefusal.message : ServerRefusal → String
  | .wrongKind => "WRONGTYPE Operation against a key holding the wrong kind of value"

/-- A call on the server. -/
abbrev ServerCall (α : Type) := EStateM ServerRefusal Keyspace α

namespace Server

/-- There is an entry under `name`. -/
def holds (name : String) : ServerCall Bool := return (← get).contains name

/-- The document under `name`. -/
def document? (name : String) : ServerCall (Option Document) := do
  match (← get).find? name with
  | none => return none
  | some (.document d) => return some d
  | some (.sequence _) => throw .wrongKind

/-- The next number of the sequence `name`; a new sequence starts with 1. -/
def next (name : String) : ServerCall Int := do
  let s ← get
  match s.find? name with
  | none => set (s.insert name (.sequence 1)); return 1
  | some (.sequence n) => set (s.insert name (.sequence (n + 1))); return n + 1
  | some (.document _) => throw .wrongKind

/-- Puts a document under `name`. -/
def put (name : String) (d : Document) : ServerCall Unit := do
  let s ← get
  match s.find? name with
  | some (.sequence _) => throw .wrongKind
  | _ => set (s.insert name (.document d))

/-- Deletes the entry under `name`; says whether there was one. -/
def delete (name : String) : ServerCall Bool := do
  let s ← get
  if s.contains name then set (s.erase name); return true
  else return false

/-! ## Lemmas -/

variable (name : String) (s : Keyspace)

theorem holds_eq : holds name s = .ok (s.contains name) s := rfl

theorem document?_eq : document? name s =
    match s.find? name with
    | none => .ok none s
    | some (.document d) => .ok (some d) s
    | some (.sequence _) => .error .wrongKind s := by
  rw [document?, get_bind]
  rcases s.find? name with _ | (d | n) <;> rfl

theorem next_eq : next name s =
    match s.find? name with
    | none => .ok 1 (s.insert name (.sequence 1))
    | some (.sequence n) => .ok (n + 1) (s.insert name (.sequence (n + 1)))
    | some (.document _) => .error .wrongKind s := by
  rw [next, get_bind]
  rcases s.find? name with _ | (d | n) <;> rfl

theorem put_eq (d : Document) : put name d s =
    match s.find? name with
    | some (.sequence _) => .error .wrongKind s
    | _ => .ok () (s.insert name (.document d)) := by
  rw [put, get_bind]
  rcases s.find? name with _ | (d | n) <;> rfl

theorem delete_eq : delete name s =
    if s.contains name then .ok true (s.erase name) else .ok false s := by
  rw [delete, get_bind]
  cases s.contains name <;> rfl

end Server

end CasStore
