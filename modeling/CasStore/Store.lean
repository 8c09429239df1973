import CasStore.Counter
import CasStore.Program.Command
import CasStore.Table

/-!
# The store in memory

A store maps keys to documents and remembers the highest version it has given out.  Every write gets the
next version, so no version is ever given out twice.  `Store.apply` carries out one command; a refused
command leaves the store as it is.

    a write puts its document under its key and no other             (find?_write)
    and moves the highest version up by one                          (lastVersion_write)
-/

namespace CasStore

/-! ## Documents by key -/

/-- Documents by key. -/
abbrev DocMap := Table Key Document

/-- The documents in ascending order of their keys. -/
def Table.sorted (m : DocMap) : List (Key × Document) :=
  m.entries.mergeSort fun a b => a.1.value ≤ b.1.value

/-- The highest version among documents, 0 if there are none. -/
def Table.highestVersion (m : DocMap) : Int :=
  match m.entries.map (·.2.version.number) with
  | [] => 0
  | v :: vs => vs.foldl max v

/-! ## Stores -/

/-- Documents, and the highest version given out so far. -/
structure Store where
  docs : DocMap
  lastVersion : Int
  deriving DecidableEq

/-- What a store may be started from: documents, with or without the highest version given out. -/
structure StartMap where
  docs : DocMap
  lastVersion : Option Int
  deriving DecidableEq

/-- The highest version that can have been given out. -/
def StartMap.highWater (m : StartMap) : Int := max m.docs.highestVersion (m.lastVersion.getD 0)

/-- A row for each document, in ascending order of the keys. -/
def Table.listing (m : DocMap) : Value :=
  .list (m.sorted.map fun (k, d) => .list [.text k.value, .text d.content, .int d.version.number])

/-- A start map for a log: its documents, and the highest version where it is known. -/
def StartMap.listing (m : StartMap) : List (String × Value) :=
  match m.lastVersion with
  | none => [("docs", m.docs.listing)]
  | some v => [("docs", m.docs.listing), ("last_version", .int v)]

/-- Why a command is refused. -/
inductive Refusal
  /-- No document is stored under the key. -/
  | absent
  /-- A document is stored under the key already. -/
  | present
  /-- The document has another version than the one demanded. -/
  | stale (expected actual : Version)
  /-- The document is no counter. -/
  | notCounter
  /-- A number has too many digits. -/
  | numeral (problem : Numeral.Problem)
  deriving DecidableEq

/-- What a command that is carried out answers. -/
inductive Answer
  | document (d : Document)
  | removed
  | counter (i : Int)
  deriving DecidableEq

/-- An answer as programs see it. -/
def Answer.toValue : Answer → Value
  | .document d => d.toValue
  | .removed => .null
  | .counter i => .int i

namespace Store

/-! ## Algorithm -/

/-- The store that goes on from `m`. -/
def ofStart (m : StartMap) : Store := ⟨m.docs, m.highWater⟩

/-- The map from which a later store goes on where this one stops. -/
def snapshot (s : Store) : StartMap := ⟨s.docs, some s.lastVersion⟩

/-- The map that a store was started from, after the store has worked on the map itself: where the map
keeps the highest version, a write brings it up to date. -/
def follow (s : Store) (m : StartMap) : StartMap where
  docs := s.docs
  lastVersion := m.lastVersion.map fun v => if s.lastVersion = m.highWater then v else s.lastVersion

/-- The version of the next write. -/
def nextVersion (s : Store) : Version := ⟨s.lastVersion + 1⟩

/-- Writes content under a key. -/
def write (s : Store) (k : Key) (content : String) : Document × Store :=
  let d := ⟨content, s.nextVersion⟩
  (d, ⟨s.docs.insert k d, s.lastVersion + 1⟩)

/-- The value of a counter content. -/
def readCounter (content : String) : Except Refusal Int :=
  match Counter.read content with
  | .ok i => .ok i
  | .error .notCounter => .error .notCounter
  | .error (.tooLong n) => .error (.numeral (.tooLong n))

/-- Writes the value of a counter under a key. -/
def writeCounter (s : Store) (k : Key) (i : Int) : Except Refusal (Answer × Store) :=
  match Numeral.write i with
  | .error p => .error (.numeral p)
  | .ok content => .ok (.counter i, (s.write k content).2)

/-- Carries out a command. -/
def apply (s : Store) : Command → Except Refusal (Answer × Store)
  | .get k =>
    match s.docs.find? k with
    | none => .error .absent
    | some d => .ok (.document d, s)
  | .create k content =>
    if s.docs.contains k then .error .present
    else let (d, s) := s.write k content; .ok (.document d, s)
  | .update k content v =>
    match s.docs.find? k with
    | none => .error .absent
    | some d =>
      if v.isSet && v != d.version then .error (.stale v d.version)
      else let (d, s) := s.write k content; .ok (.document d, s)
  | .remove k =>
    if s.docs.contains k then .ok (.removed, { s with docs := s.docs.erase k })
    else .error .absent
  | .getCounter k =>
    match s.docs.find? k with
    | none => .error .absent
    | some d =>
      match readCounter d.content with
      | .error e => .error e
      | .ok i => .ok (.counter i, s)
  | .increment k delta =>
    match s.docs.find? k with
    | none => s.writeCounter k delta
    | some d =>
      match readCounter d.content with
      | .error e => .error e
      | .ok i => s.writeCounter k (i + delta)

/-! ## Lemmas -/

theorem find?_write (s : Store) (k l : Key) (content : String) :
    (s.write k content).2.docs.find? l =
      if l = k then some ⟨content, s.nextVersion⟩ else s.docs.find? l :=
  Table.find?_insert ..

theorem lastVersion_write (s : Store) (k : Key) (content : String) :
    (s.write k content).2.lastVersion = s.lastVersion + 1 := rfl

end Store

end CasStore
