import CasStore.Batch.Outcome
import CasStore.Document

/-!
# Values and faults

Programs compute with `Value`s: plain data, what the store answers with, and the errors met on the way.
An error is a `Fault`.  The store's own errors have a kind, a message, a category and a context; every
other error is foreign and has a kind and perhaps an argument.
-/

namespace CasStore

/-- The kinds of the store's own errors. -/
inductive FaultKind
  | general
  | notConnected
  | notFound
  | alreadyExists
  | versionConflict
  | decode
  | backend
  | batchItem
  deriving DecidableEq, Repr

/-- What an error is about. -/
inductive Category
  | connection
  | notFound
  | conflict
  | decode
  | backend
  | batch
  | internal
  deriving DecidableEq, Repr

/-- The kinds of errors that are not the store's own. -/
inductive ForeignKind
  | general
  | invalidValue
  | missingEntry
  | wrongType
  | noAttribute
  | outOfRange
  | overflow
  | runtime
  | depth
  | system
  | connection
  | connectionReset
  | timeout
  | driverConnection
  | driverTimeout
  | driverResponse
  | malformedJson
  | malformedText
  | invalidRecord
  | interrupt
  | cancelled
  deriving DecidableEq, Repr

/-- Where an error arose: four known fields, null when unknown, and further entries by name.
`hidden` holds what was entered under a name that contexts use themselves. -/
structure Context (ν : Type) where
  key : ν
  command : ν
  backend : ν
  index : ν
  extra : List (String × ν)
  hidden : List (String × ν)

/-- One of the store's own errors.  Its message is a text, unless a caller gives another value;
`expected` and `actual` are versions of a conflict, `index` the position of a batch item.  Errors that
are made separately differ in `serial`; 0 means unmarked. -/
structure Details (ν φ : Type) where
  kind : FaultKind
  message : ν
  category : Category
  retryable : Bool
  context : Context ν
  cause : Option φ
  expected : ν
  actual : ν
  index : Int
  serial : Nat

/-- The record type that typed documents hold. -/
structure User where
  id : Int
  name : String
  deriving DecidableEq, Repr

mutual

/-- What a program computes with. -/
inductive Value
  | null
  | bool (b : Bool)
  | int (i : Int)
  | float (x : Float)
  | text (s : String)
  | list (vs : List Value)
  | record (fields : List (String × Value))
  | key (k : Key)
  | version (v : Version)
  | document (content : Value) (version : Version)
  | user (u : User)
  | typed (value : Value) (version : Version)
  | outcome (o : Outcome Fault)
  | fault (f : Fault)

/-- An error. -/
inductive Fault
  | store (details : Details Value Fault)
  | foreign (kind : ForeignKind) (argument : Option Value) (serial : Nat)

end

/-- The result of a command or of a whole program. -/
abbrev Result := Except Fault Value

/-- What a caller's function answers with where a result is asked for: nothing makes sure that it is
one. -/
abbrev LooseResult := Result ⊕ Value

instance : Inhabited Value := ⟨.null⟩

instance : Inhabited Fault := ⟨.foreign .general none 0⟩

/-- A stored document as programs see it. -/
def Document.toValue (d : Document) : Value := .document (.text d.content) d.version

/-- The context in which nothing is known. -/
def Context.empty : Context Value := ⟨.null, .null, .null, .null, [], []⟩

/-! ## Names -/

/-- The name an error of this kind goes by. -/
def FaultKind.name : FaultKind → String
  | .general => "DocProgError"
  | .notConnected => "NotConnectedError"
  | .notFound => "NotFoundError"
  | .alreadyExists => "AlreadyExistsError"
  | .versionConflict => "VersionConflictError"
  | .decode => "DecodeError"
  | .backend => "BackendFailure"
  | .batchItem => "BatchItemFailure"

/-- All kinds of the store's own errors. -/
def FaultKind.all : List FaultKind :=
  [.general, .notConnected, .notFound, .alreadyExists, .versionConflict, .decode, .backend, .batchItem]

/-- The kind that goes by a name. -/
def FaultKind.ofName? (name : String) : Option FaultKind := all.find? (·.name == name)

/-- The category of an error of this kind, unless it is given another. -/
def FaultKind.category : FaultKind → Category
  | .general => .internal
  | .notConnected => .connection
  | .notFound => .notFound
  | .alreadyExists => .conflict
  | .versionConflict => .conflict
  | .decode => .decode
  | .backend => .backend
  | .batchItem => .batch

/-- Of the store's own errors only a version conflict may vanish by itself. -/
def FaultKind.retryable : FaultKind → Bool
  | .versionConflict => true
  | _ => false

/-- The name of a category. -/
def Category.name : Category → String
  | .connection => "CONNECTION"
  | .notFound => "NOT_FOUND"
  | .conflict => "CONFLICT"
  | .decode => "DECODE"
  | .backend => "BACKEND"
  | .batch => "BATCH"
  | .internal => "INTERNAL"

/-- The category of a name. -/
def Category.ofName? (name : String) : Option Category :=
  [connection, notFound, conflict, decode, backend, batch, internal].find? (·.name == name)

/-- The name an error of this kind goes by. -/
def ForeignKind.name : ForeignKind → String
  | .general => "Exception"
  | .invalidValue => "ValueError"
  | .missingEntry => "KeyError"
  | .wrongType => "TypeError"
  | .noAttribute => "AttributeError"
  | .outOfRange => "IndexError"
  | .overflow => "OverflowError"
  | .runtime => "RuntimeError"
  | .depth => "RecursionError"
  | .system => "OSError"
  | .connection => "ConnectionError"
  | .connectionReset => "ConnectionResetError"
  | .timeout => "TimeoutError"
  | .driverConnection => "ConnectionError"
  | .driverTimeout => "TimeoutError"
  | .driverResponse => "ResponseError"
  | .malformedJson => "JSONDecodeError"
  | .malformedText => "UnicodeDecodeError"
  | .invalidRecord => "ValidationError"
  | .interrupt => "KeyboardInterrupt"
  | .cancelled => "CancelledError"

/-- The kinds that errors outside the network driver have. -/
def ForeignKind.general? (name : String) : Option ForeignKind :=
  [.general, .invalidValue, .missingEntry, .wrongType, .noAttribute, .outOfRange, .overflow, .runtime,
    .system, .connection, .connectionReset, .timeout, .interrupt].find? (·.name == name)

/-- The kinds that errors of the network driver have. -/
def ForeignKind.driver? (name : String) : Option ForeignKind :=
  [.driverConnection, .driverTimeout, .driverResponse].find? (·.name == name)

/-- The name of an error's kind. -/
def Fault.kindName : Fault → String
  | .store d => d.kind.name
  | .foreign k _ _ => k.name

/-- The name of a value's type. -/
def Value.typeName : Value → String
  | .null => "NoneType"
  | .bool _ => "bool"
  | .int _ => "int"
  | .float _ => "float"
  | .text _ => "str"
  | .list _ => "list"
  | .record _ => "dict"
  | .key _ => "Key"
  | .version _ => "VersionToken"
  | .document _ _ => "DocumentValue"
  | .user _ => "User"
  | .typed _ _ => "Typed"
  | .outcome _ => "BatchOutcome"
  | .fault f => f.kindName

/-! ## Classes of faults -/

/-- All errors but interrupts and cancellations can be caught and turned into results. -/
def Fault.isOrdinary : Fault → Bool
  | .foreign .interrupt _ _ | .foreign .cancelled _ _ => false
  | _ => true

/-- `f` is one of the store's own errors. -/
def Fault.isStore : Fault → Bool
  | .store _ => true
  | .foreign _ _ _ => false

/-- Errors of this kind come from the network driver or from the operating system. -/
def ForeignKind.isTransport : ForeignKind → Bool
  | .system | .connection | .connectionReset | .timeout => true
  | .driverConnection | .driverTimeout | .driverResponse => true
  | _ => false

/-- `f` came from the network driver or from the operating system. -/
def Fault.isTransport : Fault → Bool
  | .foreign k _ _ => k.isTransport
  | .store _ => false

/-- The mark that tells errors made separately apart. -/
def Fault.serial : Fault → Nat
  | .store d => d.serial
  | .foreign _ _ n => n

/-- `f` marked with `n`. -/
def Fault.mark (n : Nat) : Fault → Fault
  | .store d => .store { d with serial := n }
  | .foreign k a _ => .foreign k a n

end CasStore
