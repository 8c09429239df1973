import CasStore.Value.Text

/-!
# Making, placing and listing faults

`Fault.within` adds entries to a fault's context.  Four names are fields of the context; the names in
`Context.ownNames` are those a context answers to by itself, so an entry under one of them is kept but
not listed; every other name gets an entry of its own.

    (c.set name v).get name = some v                                             (get_set)
    the listing shows the last value given for each such name                    (Context.listing)
-/

namespace CasStore

/-! ## Contexts -/

namespace Context

/-- The names a context answers to besides its fields. -/
def ownNames : List String := [
  "to_dict", "__annotations__", "__class__", "__dataclass_fields__", "__dataclass_params__",
  "__delattr__", "__dict__", "__dir__", "__doc__", "__eq__", "__format__", "__ge__",
  "__getattribute__", "__getstate__", "__gt__", "__hash__", "__init__", "__init_subclass__", "__le__",
  "__lt__", "__match_args__", "__module__", "__ne__", "__new__", "__reduce__", "__reduce_ex__",
  "__repr__", "__setattr__", "__sizeof__", "__str__", "__subclasshook__", "__weakref__"]

/-- The entry `name` of a list of entries set to `v`, in its old place if it has one. -/
def setEntry (name : String) (v : Value) : List (String × Value) → List (String × Value)
  | [] => [(name, v)]
  | (n, w) :: es => if n = name then (name, v) :: es else (n, w) :: setEntry name v es

/-- The context whose fields are `fields`, given all at once.  The entries of other names stand in one of
them, `metadata`; they are lost with it. -/
def replaced (fields : List (String × Value)) : Context Value where
  key := (fields.lookup "key").getD .null
  command := (fields.lookup "command").getD .null
  backend := (fields.lookup "backend").getD .null
  index := (fields.lookup "index").getD .null
  extra := match fields.lookup "metadata" with
    | some (.record es) => es
    | _ => []
  hidden := ("__dict__", .record fields) :: fields

/-- `c` with `v` entered under `name`. -/
def set (c : Context Value) (name : String) (v : Value) : Context Value :=
  if name = "key" then { c with key := v }
  else if name = "command" then { c with command := v }
  else if name = "backend" then { c with backend := v }
  else if name = "index" then { c with index := v }
  else if name = "__dict__" then
    match v with
    | .record fields => replaced fields
    | v => { c with hidden := setEntry name v c.hidden }
  else if name ∈ ownNames then { c with hidden := setEntry name v c.hidden }
  else { c with extra := setEntry name v c.extra }

/-- The entry of a name, its last value. -/
def get (c : Context Value) (name : String) : Option Value :=
  if name = "key" then some c.key
  else if name = "command" then some c.command
  else if name = "backend" then some c.backend
  else if name = "index" then some c.index
  else if name ∈ ownNames then c.hidden.lookup name
  else c.extra.lookup name

/-- The context with the given fields, and other entries as they are in `extra`. -/
def ofFields (extra : List (String × Value)) : List (String × Value) → Except Fault (Context Value)
  | [] => .ok { empty with extra := extra }
  | (name, v) :: fields =>
    let refused (what : String) : Except Fault (Context Value) :=
      .error (.foreign .wrongType (some (.text s!"ErrorContext.__init__() got {what} '{name}'")) 0)
    if name = "self" then refused "multiple values for argument"
    else if ["key", "command", "backend", "index"].contains name then
      (ofFields extra fields).map (·.set name v)
    else refused "an unexpected keyword argument"

/-- Why `v` cannot be entered under `name`: two of the context's own names take no plain data, and one
takes records only. -/
def refusal? (name : String) (v : Value) : Option Fault :=
  let message? :=
    if name = "__class__" then some s!"__class__ must be set to a class, not '{v.typeName}' object"
    else if name = "__dict__" then
      match v with
      | .record _ => none
      | v => some s!"__dict__ must be set to a dictionary, not a '{v.typeName}'"
    else none
  match message? with
  | some m => some (.foreign .wrongType (some (.text m)) 0)
  | none =>
    if name = "__weakref__" then
      some (.foreign .noAttribute
        (some (.text "attribute '__weakref__' of 'ErrorContext' objects is not writable")) 0)
    else none

/-- The entries in front of the first that is refused, and why that one is. -/
def admitted : List (String × Value) → List (String × Value) × Option Fault
  | [] => ([], none)
  | (name, v) :: es =>
    match refusal? name v with
    | some e => ([], some e)
    | none => ((name, v) :: (admitted es).1, (admitted es).2)

/-- The known fields, null ones left out. -/
def known (c : Context Value) : List (String × Value) :=
  [("key", c.key), ("command", c.command), ("backend", c.backend), ("index", c.index)].filter
    fun (_, v) => match v with
      | .null => false
      | _ => true

/-- The fields of `c` were given all at once, and `metadata` was not among them. -/
def isCurtailed (c : Context Value) : Bool :=
  (c.hidden.lookup "__dict__").isSome && (c.hidden.lookup "metadata").isNone

/-- The entries of `c` for a log.  A value entered under the name of the listing itself is called in
its place, and no plain value can be called. -/
def listing (c : Context Value) : Except Fault (List (String × Value)) :=
  match c.hidden.lookup "to_dict" with
  | some v => .error (.foreign .wrongType (some (.text s!"'{v.typeName}' object is not callable")) 0)
  | none =>
    if c.isCurtailed then
      .error (.foreign .noAttribute
        (some (.text "'ErrorContext' object has no attribute 'metadata'")) 0)
    else .ok (c.extra.foldl (fun es (name, v) => setEntry name v es) c.known)

/-! ## Lemmas -/

theorem lookup_setEntry (name : String) (v : Value) (es : List (String × Value)) :
    (setEntry name v es).lookup name = some v := by
  induction es with
  | nil => simp [setEntry]
  | cons e es ih =>
    unfold setEntry
    split
    · simp
    · next h =>
      have : (name == e.1) = false := by simpa using fun h' : name = e.1 => h h'.symm
      rw [show e = (e.1, e.2) from rfl, List.lookup_cons, this]
      exact ih

theorem lookup_setEntry_of_ne {name other : String} (h : other ≠ name) (v : Value)
    (es : List (String × Value)) : (setEntry name v es).lookup other = es.lookup other := by
  have h1 : (other == name) = false := by simpa using h
  induction es with
  | nil => simp [setEntry, List.lookup_cons, h1]
  | cons e es ih =>
    unfold setEntry
    split
    · next he =>
      have h2 : (other == e.1) = false := by simpa [he] using h
      rw [show e = (e.1, e.2) from rfl, List.lookup_cons, List.lookup_cons, h1, h2]
    · rw [show e = (e.1, e.2) from rfl, List.lookup_cons, List.lookup_cons, ih]

theorem get_set (c : Context Value) (name : String) (v : Value) : (c.set name v).get name = some v := by
  by_cases hdict : name = "__dict__"
  · subst hdict
    cases v with
    | record fields =>
      show List.lookup "__dict__" (("__dict__", Value.record fields) :: fields) = _
      exact List.lookup_cons_self
    | _ => exact lookup_setEntry ..
  · unfold set get
    rw [if_neg hdict]
    repeat' split
    all_goals first
      | rfl
      | exact lookup_setEntry ..

end Context

/-! ## Faults -/

namespace Fault

/-- A fault of kind `kind` that says `message`. -/
def make (kind : FaultKind) (message : String) : Details Value Fault where
  kind := kind
  message := .text message
  category := kind.category
  retryable := kind.retryable
  context := Context.empty
  cause := none
  expected := .null
  actual := .null
  index := 0
  serial := 0

/-- `f` with entries added to its context; foreign errors have none. -/
def within (entries : List (String × Value)) : Fault → Fault
  | .store d => .store { d with context := entries.foldl (fun c (name, v) => c.set name v) d.context }
  | f => f

/-- A text, or null. -/
def optionText : Option String → Value
  | none => .null
  | some s => .text s

/-- No document is stored under `key`. -/
def notFound (key : String) (command : Option String) : Fault :=
  (Fault.store (make .notFound s!"Document not found: {key}")).within
    [("key", .text key), ("command", optionText command)]

/-- A document is stored under `key` already. -/
def alreadyExists (key : String) : Fault :=
  (Fault.store (make .alreadyExists s!"Document already exists: {key}")).within
    [("key", .text key), ("command", .text "create")]

/-- The document under `key` has another version than the one demanded. -/
def versionConflict (key : String) (expected actual : Version) : Fault :=
  (Fault.store { make .versionConflict s!"Version mismatch for {key}" with
    expected := .int expected.number, actual := .int actual.number }).within
    [("key", .text key), ("command", .text "update")]

/-- The document under `key` holds no counter. -/
def notCounter (key : String) : Fault :=
  (Fault.store (make .decode s!"Counter {key} holds non-numeric content")).within
    [("key", .text key)]

/-- There is no connection to the store. -/
def notConnected : Fault := .store (make .notConnected "Not connected")

/-- Something cannot be understood; `cause` says why. -/
def decode (message : String) (cause : Option Fault) : Fault :=
  .store { make .decode message with cause := cause }

/-- An invalid value, described. -/
def invalidValue (message : String) : Fault := .foreign .invalidValue (some (.text message)) 0

/-- A value of the wrong type, described. -/
def wrongType (message : String) : Fault := .foreign .wrongType (some (.text message)) 0

/-- A numeral that is too long or none at all. -/
def ofNumeral (p : Numeral.Problem) : Fault := invalidValue p.message

/-- The plain text of a value, unless it holds a number that is too long to be written. -/
def writtenValue (v : Value) : Except Fault String :=
  if v.isPlainPrintable then .ok v.plain else .error (ofNumeral .tooLarge)

/-- The message of an error as others write it into theirs.  That raises where a number in it is too long
to be written. -/
def written (f : Fault) : Except Fault String :=
  if f.hasMessage then .ok f.message else .error (ofNumeral .tooLarge)

/-- An error of a driver or of the caller's, kept as the cause. -/
def wrap (f : Fault) (entries : List (String × Value)) : Except Fault Fault :=
  f.written.map fun text =>
    (Fault.store { make .backend s!"{f.kindName}: {text}" with cause := some f }).within entries

/-- One of the store's own errors as it is, every other one wrapped. -/
def asStore (f : Fault) (entries : List (String × Value)) : Except Fault Fault :=
  if f.isStore then .ok f else f.wrap entries

/-- The error of entries that are given to an operation under the name of one of its parameters. -/
def clash? (operation : String) (parameters : List String) (entries : List (String × Value)) :
    Option Fault :=
  (entries.find? fun (name, _) => parameters.contains name).map fun (name, _) =>
    wrongType s!"{operation} got multiple values for argument '{name}'"

/-- `f` with entries added to its context up to the first that is refused, and why that one is. -/
def annotate (f : Fault) (entries : List (String × Value)) : Fault × Option Fault :=
  match clash? "DocProgError.with_context()" ["self"] entries with
  | some e => (f, some e)
  | none => (f.within (Context.admitted entries).1, (Context.admitted entries).2)

/-- `f` with entries added to its context, none of which is refused. -/
def annotated (f : Fault) (entries : List (String × Value)) : Except Fault Fault :=
  match f.annotate entries with
  | (g, none) => .ok g
  | (_, some e) => .error e

/-- An error wrapped with a caller's entries. -/
def wrapped (f : Fault) (entries : List (String × Value)) : Except Fault Fault :=
  match clash? "BackendFailure.wrap()" ["cls", "exc"] entries with
  | some e => .error e
  | none => do (← f.wrap []).annotated entries

/-- An error as one of the store's own, with a caller's entries where it has to be wrapped. -/
def adopted (f : Fault) (entries : List (String × Value)) : Except Fault Fault :=
  match clash? "as_docprog_error()" ["error"] entries with
  | some e => .error e
  | none => if f.isStore then .ok f else f.wrapped entries

/-- Why an error of a kind cannot be made: it takes no part of some name, or it has no message and the
kind has none of its own. -/
def notMade? (kind : FaultKind) (hasMessage : Bool) (parts : List String) : Option Fault :=
  let general := s!"{FaultKind.general.name}.__init__()"
  if kind = .versionConflict then
    if hasMessage then none
    else some (wrongType s!"{kind.name}.__init__() missing 1 required positional argument: 'message'")
  else
    match parts with
    | part :: _ => some (wrongType s!"{general} got an unexpected keyword argument '{part}'")
    | [] =>
      if hasMessage ∨ kind = .notConnected then none
      else some (wrongType s!"{general} missing 1 required positional argument: 'message'")

/-- The error of a kind about a key, and perhaps a command.  Only two kinds have such errors. -/
def forKey (kind : FaultKind) (arguments : List Value) : Except Fault Fault :=
  let refused (what : String) : Except Fault Fault :=
    .error (wrongType s!"{kind.name}.for_key() {what}")
  let missing := "missing 1 required positional argument: 'key'"
  let about (text : String) (key command : Value) : Except Fault Fault :=
    (writtenValue key).map fun name =>
      (Fault.store (make kind s!"{text}: {name}")).within [("key", key), ("command", command)]
  match kind, arguments with
  | .notFound, [] | .alreadyExists, [] => refused missing
  | .notFound, [key] => about "Document not found" key .null
  | .notFound, [key, command] => about "Document not found" key command
  | .notFound, vs =>
    refused s!"takes from 2 to 3 positional arguments but {Numeral.text (vs.length + 1)} were given"
  | .alreadyExists, [key] => about "Document already exists" key (.text "create")
  | .alreadyExists, vs =>
    refused s!"takes 2 positional arguments but {Numeral.text (vs.length + 1)} were given"
  | _, _ => .error (.foreign .noAttribute
      (some (.text s!"type object '{kind.name}' has no attribute 'for_key'")) 0)

/-- The item at `index` of a batch failed. -/
def batchItem (index : Int) (cause : Fault) : Except Fault Fault := do
  let position ← (Numeral.write index).mapError ofNumeral
  let text ← cause.written
  return (Fault.store { make .batchItem s!"Batch item {position} failed: {text}" with
    cause := some cause, index := index }).within [("index", .int index)]

/-- Something asks a value for a part that it does not have. -/
def noPart (v : Value) (part : String) : Fault :=
  .foreign .noAttribute (some (.text s!"'{v.typeName}' object has no attribute '{part}'")) 0

/-- What only errors of its kind know: the versions that differ, or the position of an item. -/
def particulars : Fault → List (String × Value)
  | .foreign _ _ _ => []
  | .store d =>
    match d.kind with
    | .versionConflict => [("expected", d.expected), ("actual", d.actual)]
    | .batchItem => [("index", .int d.index)]
    | _ => []

/-- The fields of an error for a log, given the entries of its context; an empty context is left out. -/
def report (d : Details Value Fault) (context : List (String × Value)) : List (String × Value) :=
  let fields := [("error_type", Value.text d.kind.name), ("message", d.message),
    ("category", .text d.category.name), ("retryable", .bool d.retryable)]
  let fields := if context.isEmpty then fields else fields ++ [("context", .record context)]
  let fields := match d.cause with
    | none => fields
    | some c => fields ++ [("cause", .text c.message)]
  let fields := match d.kind, d.expected with
    | .versionConflict, .null => fields
    | .versionConflict, v => fields ++ [("expected", v)]
    | _, _ => fields
  match d.kind, d.actual with
  | .versionConflict, .null => fields
  | .versionConflict, v => fields ++ [("actual", v)]
  | _, _ => fields

/-- The fields of an error for a log; foreign errors have none.  There are none either of an error whose
cause has a number in its message that is too long to be written. -/
def listing : Fault → Except Fault (List (String × Value))
  | .foreign _ _ _ => .ok []
  | .store d => do
    let context ← d.context.listing
    if d.cause.all hasMessage then .ok (report d context) else .error (ofNumeral .tooLarge)

end Fault

/-- The row of a failure. -/
def ItemFailure.listing (f : ItemFailure Fault) : Except Fault Value :=
  f.cause.written.map fun text => .record [
    ("index", .int f.index), ("error", .text f.cause.kindName), ("message", .text text)]

/-- An outcome for a log: the positions that succeeded, and a row for each failure. -/
def Outcome.listing (o : Outcome Fault) : Except Fault (List (String × Value)) := do
  let rows ← o.failures.mapM ItemFailure.listing
  return [("succeeded", .list (o.succeeded.toList.map .int)), ("failed", .list rows)]

/-- An error that can be caught and turned into a result: its message can be written. -/
def Ordinary (e : Fault) : Prop := e.isOrdinary = true ∧ e.hasMessage = true

namespace Fault

/-! ## Lemmas -/

theorem written_of_hasMessage {f : Fault} (h : f.hasMessage = true) : f.written = .ok f.message := by
  simp [written, h]

theorem written_of_not_hasMessage {f : Fault} (h : f.hasMessage = false) :
    f.written = .error (ofNumeral .tooLarge) := by
  simp [written, h]

theorem written_eq_ok {f : Fault} {text : String} (h : f.written = .ok text) :
    f.hasMessage = true ∧ text = f.message := by
  unfold written at h
  split at h
  · next hm => cases h; exact ⟨hm, rfl⟩
  · cases h

theorem written_eq_error {f e : Fault} (h : f.written = .error e) :
    f.hasMessage = false ∧ e = ofNumeral .tooLarge := by
  unfold written at h
  split at h
  · cases h
  · next hm => cases h; exact ⟨by simpa using hm, rfl⟩

theorem wrap_of_hasMessage {f : Fault} (h : f.hasMessage = true) (entries : List (String × Value)) :
    f.wrap entries = .ok ((Fault.store { make .backend s!"{f.kindName}: {f.message}" with
      cause := some f }).within entries) := by
  rw [wrap, written_of_hasMessage h]
  rfl

@[simp] theorem hasMessage_mark (f : Fault) (n : Nat) : (f.mark n).hasMessage = f.hasMessage := by
  cases f with
  | store d => simp [mark, hasMessage]
  | foreign k a m => cases a <;> cases k <;> simp [mark, hasMessage]

/-- One of the store's own errors that says a text. -/
theorem hasMessage_of_text {d : Details Value Fault} {s : String} (h : d.message = .text s) :
    (Fault.store d).hasMessage = true := by
  simp [hasMessage, h, Value.isPlainPrintable, Value.isPrintable]

@[simp] theorem hasMessage_decode (message : String) (cause : Option Fault) :
    (decode message cause).hasMessage = true := hasMessage_of_text rfl

@[simp] theorem hasMessage_within (entries : List (String × Value)) (f : Fault) :
    (f.within entries).hasMessage = f.hasMessage := by
  cases f with
  | store d => simp [within, hasMessage]
  | foreign => rfl

theorem hasMessage_asStore {f g : Fault} (h : f.hasMessage = true) {entries : List (String × Value)}
    (hg : f.asStore entries = .ok g) : g.hasMessage = true := by
  unfold asStore at hg
  split at hg
  · cases hg
    exact h
  · rw [wrap_of_hasMessage h] at hg
    cases hg
    exact (hasMessage_within ..).trans (hasMessage_of_text rfl)

/-- A foreign error that says a text. -/
@[simp] theorem hasMessage_text (k : ForeignKind) (s : String) (n : Nat) :
    (Fault.foreign k (some (.text s)) n).hasMessage = true := by
  cases k <;> simp [hasMessage, Value.isPlainPrintable, Value.isPrintable]

end Fault

theorem ordinary_text {k : ForeignKind} {s : String} {n : Nat}
    (h : (Fault.foreign k (some (.text s)) n).isOrdinary = true) :
    Ordinary (.foreign k (some (.text s)) n) := ⟨h, Fault.hasMessage_text ..⟩

theorem ordinary_noPart (v : Value) (part : String) : Ordinary (Fault.noPart v part) :=
  ordinary_text rfl

theorem ordinary_ofNumeral (p : Numeral.Problem) : Ordinary (Fault.ofNumeral p) := ordinary_text rfl

end CasStore
