import CasStore.CommandLine

/-!
# The program

Commands are carried out on a server that lives as long as the program does.  What a command says goes
to standard output, what goes wrong and what is logged to standard error.
-/

namespace CasStore.CommandLine

/-- What a command acts on: the connection, and the server at its other end. -/
structure Machine where
  link : Link
  server : Keyspace

/-- The connection of a machine. -/
def Machine.linkSlot : Slot Machine Link := ⟨Machine.link, fun l m => { m with link := l }⟩

/-- The server of a machine. -/
def Machine.serverSlot : Slot Machine Keyspace := ⟨Machine.server, fun s m => { m with server := s }⟩

/-- The machine at the start: nothing is connected, nothing is stored. -/
def Machine.start : Machine := ⟨.idle, .empty⟩

/-- Commands are carried out over the connection of the machine. -/
def Machine.site (around : Surroundings) : Site Machine where
  around := around
  network := fun s => ⟨s, Keyspace.driver serverSlot, linkSlot⟩
  store := none

/-- The marks for colour and weight that lines may hold. -/
def marks : List String := [
  "[bold red]", "[/bold red]", "[bold]", "[/bold]", "[red]", "[/red]", "[green]", "[/green]", "[dim]",
  "[/dim]"]

/-- A block as lines of plain text. -/
def Block.lines : Block → List String
  | .line markup => [marks.foldl (fun s mark => s.replace mark "") markup]
  | .json v => [String.ofList v.compact]
  | .table title headers rows => title.toList ++ (headers :: rows).map (String.intercalate "  ")

/-- The variables of the environment that settings are read from. -/
def variableNames : List String :=
  Settings.default.fields.map fun (name, _) => "DOCPROG_" ++ Text.capitals name

/-- The file of a path, by its full path; none if it cannot be read. -/
def fileAt (directory path : String) : IO (List (String × List UInt8)) :=
  try
    let octets ← IO.FS.readBinFile path
    return [(Path.resolve directory path, octets.data.toList)]
  catch _ => return []

/-- What the program finds around it. Of the files, only those are read that settings or words name. -/
def surroundings (words : List String) : IO Surroundings := do
  let environment ← variableNames.filterMapM fun name => do
    return (← IO.getEnv name).map fun v => (name, v)
  let directory := (← IO.currentDir).toString
  let files ← (Settings.localFile :: words).mapM (fileAt directory)
  return ⟨environment, Table.ofList files.flatten, directory, (← IO.appDir).toString⟩

/-- Writes what a command shows and logs; the answer is its status. -/
def finish (c : Logging) (events : List Event) (s : Screen) : IO UInt32 := do
  for line in events.flatMap (c.lines "") do IO.eprintln line
  IO.print s.written
  for line in s.out.flatMap Block.lines do IO.println line
  for line in s.err.flatMap Block.lines do IO.eprintln line
  return s.status.toUInt32

/-- Runs the words of a command line on a new machine.  Events are logged without the time. -/
def runOnMachine (words : List String) : IO UInt32 := do
  let around ← surroundings words
  let logging :=
    match prepare around words with
    | .ok ready => { ready.logging with stamped := false }
    | .error _ => unconfigured
  match run (Machine.site around) words (Run.start .start) with
  | .ok screen s => finish logging s.journal.events screen
  | .error e s => finish logging s.journal.events (.fails s!"{e.kindName}: {e.message}")

end CasStore.CommandLine

/-- Runs the words of the command line. -/
def main (words : List String) : IO UInt32 := CasStore.CommandLine.runOnMachine words
