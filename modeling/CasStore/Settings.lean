import CasStore.Settings.Assignment
import CasStore.Settings.Number
import CasStore.Value.Text

/-!
# Settings

The settings of a connection come from four layers: arguments, the environment, files of assignments,
and defaults.  For each field the first layer that knows it counts, and of several files the last.
Every field is checked, and a set of settings is made only if all fields are in order.

    a field that is in order has at most one value, one that is not has one problem   (Check)
-/

namespace CasStore

/-- The settings of a connection. -/
structure Settings where
  host : String
  port : Int
  bucketName : String
  ioPoolSize : Int
  computationPoolSize : Int
  kvEndpoints : Int
  socketTimeout : Float
  logLevel : String
  logFormat : String

namespace Settings

/-- The settings that hold where nothing is said. -/
def default : Settings where
  host := "localhost"
  port := 6379
  bucketName := "default"
  ioPoolSize := 4
  computationPoolSize := 4
  kvEndpoints := 2
  socketTimeout := 2.5
  logLevel := "INFO"
  logFormat := "json"

/-- The address of the server. -/
def url (s : Settings) : String := s!"redis://{s.host}:{Numeral.text s.port}/0"

/-- The greatest number of connections: those of one endpoint, for each endpoint. -/
def maxConnections (s : Settings) : Int := s.ioPoolSize * s.kvEndpoints

/-- The fields by name, in order. -/
def fields (s : Settings) : List (String × Value) := [
  ("host", .text s.host), ("port", .int s.port), ("bucket_name", .text s.bucketName),
  ("io_pool_size", .int s.ioPoolSize), ("computation_pool_size", .int s.computationPoolSize),
  ("kv_endpoints", .int s.kvEndpoints), ("socket_timeout", .float s.socketTimeout),
  ("log_level", .text s.logLevel), ("log_format", .text s.logFormat)]

/-- The fields, and what follows from them. -/
def listing (s : Settings) : List (String × Value) :=
  s.fields ++ [("url", .text s.url), ("max_connections", .int s.maxConnections)]

/-- How long a call may take, as options of a client. -/
def timeouts (s : Settings) : List (String × Value) :=
  [("socket_timeout", .float s.socketTimeout), ("socket_connect_timeout", .float s.socketTimeout)]

/-- The options of the client that asks whether the server is there. -/
def pingOptions (s : Settings) : List (String × Value) :=
  [("host", .text s.host), ("port", .int s.port)] ++ s.timeouts

/-- The options of a session's client. -/
def clientOptions (s : Settings) : List (String × Value) :=
  [("max_connections", .int s.maxConnections)] ++ s.timeouts ++ [("decode_responses", .bool true)]

/-! ## Checking fields -/

/-- What is wrong with a value. -/
inductive Problem
  | notWhole
  | notWholeText
  | tooLongText
  | fraction
  | notFinite
  | notNumber
  | notNumberText
  | notText
  | tooShort
  | tooSmall
  | tooLarge
  | notGreater
  deriving DecidableEq, Repr

/-- The name of a problem. -/
def Problem.name : Problem → String
  | .notWhole => "int_type"
  | .notWholeText => "int_parsing"
  | .tooLongText => "int_parsing_size"
  | .fraction => "int_from_float"
  | .notFinite => "finite_number"
  | .notNumber => "float_type"
  | .notNumberText => "float_parsing"
  | .notText => "string_type"
  | .tooShort => "string_too_short"
  | .tooSmall => "greater_than_equal"
  | .tooLarge => "less_than_equal"
  | .notGreater => "greater_than"

/-- The whole number that a value gives. -/
def whole : Value → Except Problem Int
  | .int i => .ok i
  | .bool b => .ok (if b then 1 else 0)
  | .text s =>
    (wholeNumber s).mapError fun
      | .malformed => .notWholeText
      | .tooLong => .tooLongText
  | .float x =>
    if x.isNaN || x.isInf then .error .notFinite
    else
      match Decimal.wholePart? x with
      | some i => .ok i
      | none => .error .fraction
  | _ => .error .notWhole

/-- A whole number within bounds. -/
def wholeWithin (least : Int) (greatest : Option Int) (v : Value) : Except Problem Int := do
  let i ← whole v
  if i < least then throw .tooSmall
  if let some g := greatest then
    if g < i then throw .tooLarge
  return i

/-- A number greater than zero; a whole number beyond the greatest double is none. -/
def positive (v : Value) : Except Problem Float := do
  let x ← match v with
    | .int i => if (Float.ofInt i).isInf then throw .notNumber else pure (Float.ofInt i)
    | .bool b => pure (if b then 1.0 else 0.0)
    | .float x => pure x
    | .text s =>
      match number? s with
      | some x => pure x
      | none => throw .notNumberText
    | _ => throw .notNumber
  if x > 0.0 then return x else throw .notGreater

/-- A text of at least so many characters. -/
def textOf (least : Nat) : Value → Except Problem String
  | .text s => if s.length < least then .error .tooShort else .ok s
  | _ => .error .notText

/-! ## Layers -/

/-- What the names of fields begin with outside the program. -/
def outerStart : String := "docprog_"

/-- A name in lower case, as far as that brings ASCII letters about: the one other character that has an
ASCII letter as its lower case is the Kelvin sign. -/
def lower (s : String) : String := s.map fun c => if c = '\u212a' then 'k' else c.toLower

/-- The layers above the defaults. -/
structure Layers where
  arguments : List (String × Value)
  environment : List (String × String)
  files : List (List Assignment)

/-- The last value of a field among assignments whose names are in any case. -/
def lastAssigned (field : String) (as : List Assignment) : Option (Option String) :=
  (as.reverse.find? fun (name, _) => lower name == outerStart ++ field).map (·.2)

/-- The value that the layers give a field. -/
def Layers.value? (l : Layers) (field : String) : Option Value :=
  match l.arguments.lookup field with
  | some v => some v
  | none =>
    match lastAssigned field (l.environment.map fun (name, v) => (name, some v)) with
    | some (some v) => some (.text v)
    | _ =>
      match l.files.reverse.findSome? (lastAssigned field) with
      | some (some v) => some (.text v)
      | _ => none

/-- The checked value of a field, or its default. -/
def Layers.field {α : Type} (l : Layers) (name : String) (fallback : α)
    (check : Value → Except Problem α) : Except (String × Problem) α :=
  match l.value? name with
  | none => .ok fallback
  | some v => (check v).mapError fun p => (name, p)

/-- The problem of a field, as a list. -/
def problems {α : Type} : Except (String × Problem) α → List (String × Problem)
  | .ok _ => []
  | .error p => [p]

/-- The settings that the layers give, or the problems of all fields that are not in order. -/
def ofLayers (l : Layers) : Except (List (String × Problem)) Settings :=
  let host := l.field "host" default.host (textOf 0)
  let port := l.field "port" default.port (wholeWithin 1 (some 65535))
  let bucketName := l.field "bucket_name" default.bucketName (textOf 1)
  let ioPoolSize := l.field "io_pool_size" default.ioPoolSize (wholeWithin 1 none)
  let computationPoolSize :=
    l.field "computation_pool_size" default.computationPoolSize (wholeWithin 1 none)
  let kvEndpoints := l.field "kv_endpoints" default.kvEndpoints (wholeWithin 1 none)
  let socketTimeout := l.field "socket_timeout" default.socketTimeout positive
  let logLevel := l.field "log_level" default.logLevel (textOf 0)
  let logFormat := l.field "log_format" default.logFormat (textOf 0)
  match host, port, bucketName, ioPoolSize, computationPoolSize, kvEndpoints, socketTimeout,
      logLevel, logFormat with
  | .ok host, .ok port, .ok bucketName, .ok ioPoolSize, .ok computationPoolSize, .ok kvEndpoints,
      .ok socketTimeout, .ok logLevel, .ok logFormat =>
    .ok ⟨host, port, bucketName, ioPoolSize, computationPoolSize, kvEndpoints, socketTimeout,
      logLevel, logFormat⟩
  | host, port, bucketName, ioPoolSize, computationPoolSize, kvEndpoints, socketTimeout,
      logLevel, logFormat =>
    .error (problems host ++ problems port ++ problems bucketName ++ problems ioPoolSize ++
      problems computationPoolSize ++ problems kvEndpoints ++ problems socketTimeout ++
      problems logLevel ++ problems logFormat)

end Settings

end CasStore
