import CasStore.CommandLine.Invocation
import CasStore.CommandLine.Records
import CasStore.CommandLine.Screen
import CasStore.Logging
import CasStore.Network
import CasStore.Settings.Load

/-!
# The command line

A command builds one program, runs it on a backend that is connected for the purpose, and shows the
result.  The order in which things can go wrong is fixed: the words in front of the area, the settings,
the level of logging, the words of the area, the key, the connection, the program.
-/

namespace CasStore.CommandLine

variable {σ : Type}

/-- Where commands are carried out: what is around, the network that settings give, and a store that
takes its place where there is one. -/
structure Site (σ : Type) where
  around : Surroundings
  network : Settings → Network σ
  store : Option (Backend σ)

/-- What is written about the version. -/
def versionText : String := "docprog 0.1.0\n"

/-- What is shown in place of a command. -/
def Stop.screen : Stop → Screen
  | .misuse => .silent 2
  | .help => .silent 0
  | .version => { Screen.silent 0 with written := versionText }

/-! ## Backends -/

/-- Runs a program on a backend; without a connection there is a screen that says why. -/
def runProgram (site : Site σ) (settings : Settings) (p : Program σ) :
    Call (Run σ) (Except Screen LooseResult) := do
  match site.store with
  | some b => return .ok (← p.execute b)
  | none => do
    let n := site.network settings
    match ← n.connect with
    | .error e => return .error (.fails (← Call.ofExcept (errorLine e)))
    | .ok _ => return .ok (← (p.execute n.backend).closing n.disconnect)

/-- Says whether the server is there. -/
def ping (site : Site σ) (settings : Settings) : Call (Run σ) Screen := do
  let n := site.network settings
  match ← n.connect with
  | .error e => return .fails (← Call.ofExcept (errorLine e))
  | .ok _ => do
    n.disconnect
    return .shows [.line s!"[green]✓[/green] connected to {settings.url}"]

/-! ## Settings -/

/-- A field of the settings as JSON, which has no infinite numbers. -/
def settingJson : Value → Json
  | .float x => if x.isInf then .null else .float x
  | v => Json.ofValue v

/-- The settings in a format. -/
def showSettings (s : Settings) : Format → List Block
  | .json => [.json (.object (s.fields.map fun (name, v) => (name, settingJson v)))]
  | .assignments =>
    let sorted := s.fields.mergeSort fun a b => a.1 ≤ b.1
    sorted.map fun (name, v) => .line s!"DOCPROG_{Text.capitals name}={v.plain}"
  | .table => [
      .line s!"[bold]Store:[/bold] {s.url} (bucket {s.bucketName})",
      .table none ["Setting", "Value"] (s.fields.map fun (name, v) => [name, v.plain])]

/-- A file of settings, with a mark that says whether it is there. -/
def fileLine (path : String) (present : Bool) : Block :=
  let mark := if present then "[green]✓[/green]" else "[dim]-[/dim]"
  .line s!"  {mark} {path}"

/-- The files that settings are read from, in the order they are read. -/
def showFiles (around : Surroundings) : List Block :=
  let path := Path.resolve around.directory Settings.localFile
  [fileLine (around.installation ++ "/" ++ Settings.bundledFile) true,
    fileLine path (around.files.contains path)]

/-! ## Documents -/

/-- The program of an action.  Removing answers with the key that was removed. -/
def actionProgram (k : Key) (a : Action) : Program σ :=
  let p : Program σ := Program.command (a.command k)
  match a with
  | .remove => p.map fun _ s => .ok (.record [("removed", .text k.value)]) s
  | _ => p

/-- The title over the result of an action. -/
def actionTitle (key : String) : Action → String
  | .remove => ""
  | _ => key

/-- Carries out an action. -/
def act (site : Site σ) (settings : Settings) (key : String) (a : Action) (json : Bool) :
    Call (Run σ) Screen := do
  let k ← Call.ofExcept (Key.ofValue (.text key))
  match ← runProgram site settings (actionProgram k a) with
  | .error screen => return screen
  | .ok r => Call.ofExcept (Screen.ofLoose json (actionTitle key a) r)

/-- The status of an import: that of a failure where a record failed. -/
def importStatus : LooseResult → Nat
  | .inl (.ok (.outcome o)) => if o.isSuccess then 0 else 1
  | .inl (.error _) => 1
  | _ => 0

/-- Creates a document for each record of a file. -/
def importRecords (site : Site σ) (settings : Settings) (octets : List UInt8)
    (path keyField : String) (stopAtFirst json : Bool) : Call (Run σ) Screen := do
  let policy : Policy σ := if stopAtFirst then Policy.stop else Policy.always
  match ← runProgram site settings (Program.batch ⟨none, Records.items keyField octets⟩ policy) with
  | .error screen => return screen
  | .ok r => do
    let screen ← Call.ofExcept (Screen.ofLoose json (Path.shown path) r)
    return { screen with status := importStatus r }

/-! ## Commands -/

/-- Carries out what is asked for.  A file to be imported must be there. -/
def carryOut (site : Site σ) (settings : Settings) : Invocation → Call (Run σ) Screen
  | .ping => ping site settings
  | .showSettings format => return .shows (showSettings settings format)
  | .showFiles => return .shows (showFiles site.around)
  | .act key a json => act site settings key a json
  | .importRecords path keyField stopAtFirst json =>
    match site.around.file? (Path.shown path) with
    | none => return Stop.misuse.screen
    | some octets => importRecords site settings octets path keyField stopAtFirst json

/-- How much is logged. -/
def loggingOptions (verbose : Bool) (s : Settings) : LoggingOptions where
  level := .text (if verbose then "DEBUG" else s.logLevel)
  json := s.logFormat == "json"
  service := Logging.defaults.service
  stamped := Logging.defaults.stamped

/-- How events are written before anything is configured. -/
def unconfigured : Logging := ⟨0, true, Logging.defaults.service, true⟩

/-- What is settled before the words of the area are read. -/
structure Preparation where
  opening : Opening
  settings : Settings
  logging : Logging

/-- Why a command ends before the words of its area are read. -/
inductive Obstacle
  /-- There is something to show instead. -/
  | screen (s : Screen)
  /-- An error is raised. -/
  | raised (e : Fault)

/-- The settings that commands are carried out with. -/
def readSettings (around : Surroundings) : Except Obstacle Settings :=
  match Settings.readLayers around (Path.resolve around.directory Settings.localFile) with
  | .ok settings => .ok settings
  | .error (.fields ps) =>
    .error (.screen (.fails s!"[red]Configuration Error:[/red] {Settings.countText ps}"))
  | .error e => .error (.raised e.fault)

/-- Reads the words in front of the area, then the settings, and configures logging. -/
def prepare (around : Surroundings) (words : List String) : Except Obstacle Preparation := do
  let opening ← (Opening.read words).mapError fun stop => Obstacle.screen stop.screen
  let settings ← readSettings around
  match unconfigured.configure (loggingOptions opening.verbose settings) with
  | (logging, none) => return ⟨opening, settings, logging⟩
  | (_, some e) => throw (.raised e)

/-- Runs the words of a command line. -/
def run (site : Site σ) (words : List String) : Call (Run σ) Screen := do
  match prepare site.around words with
  | .error (.screen screen) => return screen
  | .error (.raised e) => throw e
  | .ok ready =>
    match ready.opening.area.read ready.opening.words with
    | .error stop => return stop.screen
    | .ok i => carryOut site ready.settings i

end CasStore.CommandLine
