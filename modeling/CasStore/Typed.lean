import CasStore.Program

/-!
# Typed documents

A codec maps values of a type to contents and keys.  The programs below read and write such values; they
are ordinary programs and compose with all others.

    a value that was changed is written with the version it was read with   (modify)
    a value that cannot be encoded becomes a failed item                    (item)
-/

namespace CasStore

/-- How values are stored: their content, their key, and the value of a content. -/
structure Codec (σ : Type) where
  serialize : Value → σ → Reply σ String
  deserialize : Value → σ → Reply σ Result
  keyFor : Value → σ → Reply σ Key

namespace Typed

variable {σ : Type}

/-- The value of a document, with its version. -/
def decode (codec : Codec σ) (document : Value) : σ → Reply σ (Program σ) := fun s =>
  match document with
  | .document content version =>
    match codec.deserialize content s with
    | .ok (.ok v) s => .ok (Program.pure (.typed v version)) s
    | .ok (.error e) s => .ok (Program.fail e) s
    | .error e s => .error e s
  | v => .error (Fault.noPart v "content") s

/-- A document that has been written, as the value it was written from. -/
def written (value document : Value) : σ → Reply σ Value := fun s =>
  match document with
  | .document _ version => .ok (.typed value version) s
  | v => .error (Fault.noPart v "version") s

/-- A call that builds a program, as a binding function's answer. -/
def asNext (c : σ → Reply σ (Program σ)) : σ → Reply σ (Next (Program σ)) := fun s =>
  match c s with
  | .ok p s => .ok (.program p) s
  | .error e s => .error e s

/-- Reads the value under a key. -/
def get (codec : Codec σ) (key : Key) : Program σ :=
  (Program.command (.get key)).andThen fun document => asNext (decode codec document)

/-- Stores a value under its key, where there is none yet. -/
def create (codec : Codec σ) (value : Value) : σ → Reply σ (Program σ) := fun s =>
  match codec.keyFor value s with
  | .error e s => .error e s
  | .ok key s =>
    match codec.serialize value s with
    | .error e s => .error e s
    | .ok content s => .ok ((Program.command (.create key content)).map (written value)) s

/-- Replaces the value under a value's key; a version that is set is demanded. -/
def update (codec : Codec σ) (value : Value) (version : Version) : σ → Reply σ (Program σ) := fun s =>
  match codec.keyFor value s with
  | .error e s => .error e s
  | .ok key s =>
    match codec.serialize value s with
    | .error e s => .error e s
    | .ok content s => .ok ((Program.command (.update key content version)).map (written value)) s

/-- A changed value, to be written with the version it was read with. -/
def writeBack (codec : Codec σ) (change : Value → σ → Reply σ Value) (current : Value) :
    σ → Reply σ (Program σ) := fun s =>
  match current with
  | .typed value version =>
    match change value s with
    | .ok changed s => update codec changed version s
    | .error e s => .error e s
  | v => .error (Fault.noPart v "value") s

/-- Reads the value under a key, changes it and writes it, unless the document has changed meanwhile. -/
def modify (codec : Codec σ) (key : Key) (change : Value → σ → Reply σ Value) : Program σ :=
  (get codec key).andThen fun current => asNext (writeBack codec change current)

/-! ## Batches -/

/-- The failure of encoding a value. -/
def notEncoded (e : Fault) : Except Fault Fault :=
  e.written.map fun text => .decode s!"Cannot encode batch item: {text}" (some e)

/-- The batch item of a value. -/
def item (codec : Codec σ) (value : Value) : σ → Reply σ (Item (Program σ)) := fun s =>
  let handle (e : Fault) (s : σ) : Reply σ (Item (Program σ)) :=
    if e.isOrdinary then (Call.ofExcept (notEncoded e) : Call σ Fault).map .failed s else .error e s
  match codec.keyFor value s with
  | .error e s => handle e s
  | .ok key s =>
    match codec.serialize value s with
    | .error e s => handle e s
    | .ok content s => .ok (.record (Program.pure (.key key)) content) s

/-- Items made from values, each when it is pulled. -/
def items (codec : Codec σ) (values : List (σ → Reply σ Value)) :
    List (σ → Reply σ (Item (Program σ))) :=
  values.map fun value s =>
    match value s with
    | .ok v s => item codec v s
    | .error e s => .error e s

/-! ## Lemmas -/

theorem notEncoded_of_hasMessage {e : Fault} (h : e.hasMessage = true) :
    notEncoded e = .ok (.decode s!"Cannot encode batch item: {e.message}" (some e)) := by
  rw [notEncoded, Fault.written_of_hasMessage h]
  rfl

end Typed

end CasStore
