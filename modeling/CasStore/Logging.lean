import CasStore.Journal
import CasStore.Json
import CasStore.Text.Capital
import CasStore.Text.Lines

/-!
# Writing events

A log is written with a configuration: the least level written, whether lines are JSON, the name of the
service, and whether events are stamped with the time.  `Logging.fields` is what one event is written
with.

    a field that an event names itself wins over a bound one         (Logging.own)
    an event's level is its own, whatever its fields say             (level_fields)
-/

namespace CasStore

/-- How events are written. -/
structure Logging where
  least : Nat
  json : Bool
  service : Value
  stamped : Bool

/-- What a log is configured with. -/
structure LoggingOptions where
  level : Value
  json : Bool
  service : Value
  stamped : Bool

namespace Logging

/-! ## Configuration -/

/-- The configuration options that hold where nothing is said. -/
def defaults : LoggingOptions := ⟨.text "INFO", true, .text "docprog", true⟩

/-- A value counts as yes unless it is null, false, zero or empty. -/
def isYes : Value → Bool
  | .null => false
  | .bool b => b
  | .int i => i != 0
  | .float x => x != 0.0
  | .text s => s != ""
  | .list vs => !vs.isEmpty
  | .record fs => !fs.isEmpty
  | _ => true

/-- The options that fields name; the others are as they are where nothing is said, and so is a format
that is null. -/
def optionsOf (fs : Fields) : Except Fault LoggingOptions :=
  fs.foldlM (fun o (name, v) => match name, v with
    | "level", v => .ok { o with level := v }
    | "json_format", .null => .ok { o with json := defaults.json }
    | "json_format", v => .ok { o with json := isYes v }
    | "service", v => .ok { o with service := v }
    | "add_timestamp", v => .ok { o with stamped := isYes v }
    | name, _ => .error (.wrongType s!"configure_logging() got an unexpected keyword argument '{name}'"))
    defaults

/-- The least rank written at a level, by the level's name in capitals. -/
def rank? (name : String) : Option Nat :=
  [("CRITICAL", 50), ("FATAL", 50), ("ERROR", 40), ("WARNING", 30), ("WARN", 30), ("INFO", 20),
    ("DEBUG", 10), ("NOTSET", 0)].lookup name

/-- The error of a level that there is not.  Two names belong to other things than levels. -/
def noLevel (name : String) : Fault :=
  if name = "BASIC_FORMAT" then
    .foreign .missingEntry (some (.text "%(levelname)s:%(name)s:%(message)s")) 0
  else if name = "_STYLES" then .wrongType "unhashable type: 'dict'"
  else .foreign .noAttribute (some (.text s!"module 'logging' has no attribute '{name}'")) 0

/-- The least rank written at a level, which is named in any case. -/
def leastOf : Value → Except Fault Nat
  | .text s =>
    match rank? (Text.capitals s) with
    | some least => .ok least
    | none => .error (noLevel (Text.capitals s))
  | v => .error (Fault.noPart v "upper")

/-- Configures a log.  Where there is no such level, only the service is changed. -/
def configure (c : Logging) (o : LoggingOptions) : Logging × Option Fault :=
  match leastOf o.level with
  | .ok least => (⟨least, o.json, o.service, o.stamped⟩, none)
  | .error e => ({ c with service := o.service }, some e)

/-- Why no scope is opened with fields: one of them is named as the scope itself is. -/
def noScope? (fs : Fields) : Option Fault := Fault.clash? "LogContext.__init__()" ["self"] fs

/-! ## Events -/

/-- Sets fields in a list of fields. -/
def setAll (base new : Fields) : Fields :=
  new.foldl (fun fs (name, v) => Context.setEntry name v fs) base

/-- The fields an event names itself, with its name and perhaps the time. -/
def own (c : Logging) (time : String) (e : Event) : Fields :=
  let fs := setAll e.fields [("event", .text e.name)]
  if c.stamped then Context.setEntry "timestamp" (.text time) fs else fs

/-- What an event is written with. A demand for the call stack is not written. -/
def fields (c : Logging) (time : String) (e : Event) : Fields :=
  let fs := (setAll e.bound (c.own time e)).filter fun (name, _) => name != "stack_info"
  let fs := if (fs.lookup "service").isSome then fs else fs ++ [("service", c.service)]
  Context.setEntry "level" (.text e.level.name) fs

/-- Events of this level are written. -/
def admits (c : Logging) (l : Level) : Bool := c.least ≤ l.rank

/-- A value in plain text: a text with blanks, quotes or an equals sign in it stands in quotes. -/
def plainValue : Value → String
  | .text s => if s.toList.any (" \t=\r\n\"'".toList.contains ·) then Text.quoted s else s
  | v => v.shown

/-- `s` with blanks at its end, at least `width` characters in all. -/
def padded (width : Nat) (s : String) : String :=
  s ++ String.ofList (List.replicate (width - s.length) ' ')

/-- The names of fields that have places of their own in plain text. -/
def placed : List String :=
  ["timestamp", "level", "event", "logger", "logger_name", "stack", "exception", "exc_info"]

/-- What follows the first lines of plain text: a call stack and an error, with a rule between them. -/
def appendix (fs : Fields) : String :=
  let asked := ((fs.lookup "exc_info").map isYes).getD false
  let error := (fs.lookup "exception").map fun v => "\n" ++ v.plain
  let rule := "\n\n" ++ String.ofList (List.replicate 79 '=') ++ "\n"
  let stack := (fs.lookup "stack").map fun v =>
    "\n" ++ v.plain ++ if asked || error.isSome then rule else ""
  stack.getD "" ++ error.getD ""

/-- Fields as plain text: the time, the level, the event, who logs it, and the others by name. -/
def plain (fs : Fields) : String :=
  let place (name : String) (text : String → String) : List String :=
    ((fs.lookup name).map fun v => text v.plain).toList
  let bracketed (text : String) : String := "[" ++ text ++ "]"
  let start := place "timestamp" id ++ place "level" (fun t => bracketed (padded 9 t)) ++
    place "event" (padded 30) ++ place "logger" bracketed ++ place "logger_name" bracketed
  let others := fs.filter fun (name, _) => !placed.contains name
  let named := (others.mergeSort fun f g => f.1 ≤ g.1).map fun (name, v) =>
    name ++ "=" ++ plainValue v
  let line := (String.intercalate " " (start ++ named)).toList
  String.ofList (line.reverse.dropWhile (· = ' ')).reverse ++ appendix fs

/-- The lines that are written of an event: one line of JSON, or plain text, which may have several
lines. -/
def lines (c : Logging) (time : String) (e : Event) : List String :=
  let fs := c.fields time e
  if !c.admits e.level then []
  else if c.json then [String.ofList (Json.object (Json.ofFields fs)).compact]
  else (Text.brokenLines (plain fs).toList).map String.ofList

/-! ## Lemmas -/

theorem level_fields (c : Logging) (time : String) (e : Event) :
    (c.fields time e).lookup "level" = some (.text e.level.name) :=
  Context.lookup_setEntry ..

end Logging

end CasStore
