import CasStore.CommandLine.Words
import CasStore.Program.Command

/-!
# What the command line asks for

The first word that is no option names an area: `ping` stands alone, `config`, `doc` and `counter` have
commands of their own.  An area is known before the settings are loaded; its words are read after that.

    Opening.read      the options in front of the area, and the area
    Area.read         the words of the area's command
-/

namespace CasStore.CommandLine

/-- What is done about one document. -/
inductive Action
  | get
  | create (content : String)
  | update (content : String) (version : Int)
  | remove
  | getCounter
  | increment (delta : Int)
  deriving DecidableEq, Repr

/-- How settings are shown. -/
inductive Format
  | table
  | json
  | assignments
  deriving DecidableEq, Repr

/-- What is asked for. -/
inductive Invocation
  | ping
  | showSettings (format : Format)
  | showFiles
  | act (key : String) (action : Action) (json : Bool)
  | importRecords (path keyField : String) (stopAtFirst json : Bool)
  deriving DecidableEq, Repr

/-- The areas. -/
inductive Area
  | ping
  | config
  | doc
  | counter
  deriving DecidableEq, Repr

/-- What stands in front of the words of an area: whether much is to be logged, and the area. -/
structure Opening where
  verbose : Bool
  area : Area
  words : List String
  deriving DecidableEq, Repr

/-- The command that an action is on a key. -/
def Action.command (k : Key) : Action → Command
  | .get => .get k
  | .create content => .create k content
  | .update content version => .update k content ⟨version⟩
  | .remove => .remove k
  | .getCounter => .getCounter k
  | .increment delta => .increment k delta

/-! ## Commands of an area -/

/-- A command of an area: its name, its options besides that for help, the number of its operands, and
what it asks for; nothing where an option's value is no good. -/
structure Form where
  name : String
  switches : List Switch
  operands : Nat
  make : Reading → Option Invocation

/-- The option for help. -/
def helpSwitch : Switch := ⟨"help", none, false⟩

/-- The option for JSON output. -/
def jsonSwitch : Switch := ⟨"json", none, false⟩

/-- A whole number given as an option. -/
def Reading.number? (r : Reading) (name : String) (otherwise : Int) : Option Int :=
  match r.value? name with
  | none => some otherwise
  | some t =>
    match Numeral.read t with
    | .ok i => some i
    | .error _ => none

/-- An action on the first operand, which is a key. -/
def Reading.act (r : Reading) (action : Action) : Invocation :=
  .act (r.operands.headD "") action (r.has "json")

/-- The second operand. -/
def Reading.content (r : Reading) : String := r.operands[1]?.getD ""

/-- The format that an option names; an unknown one is the table. -/
def Format.ofName (name : Option String) : Format :=
  match name with
  | some "json" => .json
  | some "env" => .assignments
  | _ => .table

/-- The command `ping`. -/
def pingForm : Form := ⟨"ping", [], 0, fun _ => some .ping⟩

/-- The commands about settings. -/
def configForms : List Form := [
  ⟨"show", [⟨"format", some 'f', true⟩], 0, fun r => some (.showSettings (.ofName (r.value? "format")))⟩,
  ⟨"files", [], 0, fun _ => some .showFiles⟩]

/-- The commands about documents. -/
def docForms : List Form := [
  ⟨"get", [jsonSwitch], 1, fun r => some (r.act .get)⟩,
  ⟨"create", [jsonSwitch], 2, fun r => some (r.act (.create r.content))⟩,
  ⟨"update", [jsonSwitch, ⟨"version", some 'v', true⟩], 2, fun r =>
    (r.number? "version" 0).map fun v => r.act (.update r.content v)⟩,
  ⟨"remove", [jsonSwitch], 1, fun r => some (r.act .remove)⟩,
  ⟨"import", [jsonSwitch, ⟨"key-field", some 'k', true⟩, ⟨"stop-on-error", none, false⟩], 1, fun r =>
    some (.importRecords (r.operands.headD "") ((r.value? "key-field").getD "id")
      (r.has "stop-on-error") (r.has "json"))⟩]

/-- The commands about counters. -/
def counterForms : List Form := [
  ⟨"get", [jsonSwitch], 1, fun r => some (r.act .getCounter)⟩,
  ⟨"incr", [jsonSwitch, ⟨"by", some 'd', true⟩], 1, fun r =>
    (r.number? "by" 1).map fun d => r.act (.increment d)⟩]

/-! ## Reading -/

/-- Reads the words of a command. -/
def Form.read (f : Form) (ws : List String) : Except Stop Invocation := do
  let r ← readAsked (helpSwitch :: f.switches) true ws
  if r.operands.length ≠ f.operands then throw .misuse
  match f.make r with
  | some i => return i
  | none => throw .misuse

/-- Reads the words of one of several commands, of which the first operand is the name. -/
def readOneOf (forms : List Form) (ws : List String) : Except Stop Invocation := do
  let r ← readAsked [helpSwitch] false ws
  match r.operands with
  | [] => throw .misuse
  | name :: ws =>
    match forms.find? (·.name == name) with
    | some f => f.read ws
    | none => throw (unknownName [helpSwitch] (name :: ws))

/-- Reads the words of an area. -/
def Area.read : Area → List String → Except Stop Invocation
  | .ping => pingForm.read
  | .config => readOneOf configForms
  | .doc => readOneOf docForms
  | .counter => readOneOf counterForms

/-- The area of a name. -/
def Area.ofName? (name : String) : Option Area :=
  [("ping", Area.ping), ("config", .config), ("doc", .doc), ("counter", .counter)].lookup name

/-- The options in front of the area. -/
def openingSwitches : List Switch :=
  [helpSwitch, ⟨"version", some 'V', false⟩, ⟨"verbose", none, false⟩]

/-- Reads the options in front of the area, and the area. -/
def Opening.read (ws : List String) : Except Stop Opening := do
  let r ← readAsked openingSwitches false ws
  match r.operands with
  | [] => throw .misuse
  | name :: ws =>
    match Area.ofName? name with
    | some area => return ⟨r.has "verbose", area, ws⟩
    | none => throw (unknownName openingSwitches (name :: ws))

end CasStore.CommandLine
