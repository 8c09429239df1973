import CasStore.Settings
import CasStore.Table
import CasStore.Text.Utf8

/-!
# Loading settings

Settings are read from the environment and from two files: one that comes with the program, and one of
the working directory, which counts more.  What has been loaded for a file is kept and given out again
until it is loaded anew.
-/

namespace CasStore

/-- What a program finds around it: the environment, the files by path, the working directory, and the
directory in which its own files lie. -/
structure Surroundings where
  environment : List (String × String)
  files : Table String (List UInt8)
  directory : String
  installation : String

/-! ## Paths -/

namespace Path

/-- Splits at slashes. -/
def segments (cs : List Char) : List (List Char) :=
  cs.foldr (fun c segs => if c = '/' then [] :: segs else
    match segs with
    | [] => [[c]]
    | seg :: segs => (c :: seg) :: segs) [[]]

/-- The segments that are left when dots and double dots are followed, last one first. -/
def followed (segs : List (List Char)) : List (List Char) :=
  segs.foldl (fun before seg =>
    if seg = [] ∨ seg = ['.'] then before
    else if seg = ['.', '.'] then before.drop 1
    else seg :: before) []

/-- The path without dots, double dots and empty segments. -/
def normal (path : String) : String :=
  let body := List.intercalate ['/'] (followed (segments path.toList)).reverse
  String.ofList (if path.toList.head? = some '/' then '/' :: body else body)

/-- A path as shown: without dots and empty segments, but with its double dots. -/
def shown (path : String) : String :=
  let segs := (segments path.toList).filter fun seg => seg != [] && seg != ['.']
  let body := List.intercalate ['/'] segs
  if path.toList.head? = some '/' then String.ofList ('/' :: body)
  else if body.isEmpty then "." else String.ofList body

/-- A path, seen from a directory. -/
def resolve (directory path : String) : String :=
  if path.toList.head? = some '/' then normal path else normal (directory ++ "/" ++ path)

end Path

namespace Surroundings

/-- There is a directory of this path, which has no dots in it. -/
def isDirectory (around : Surroundings) (path : String) : Bool :=
  let within (p : String) : Bool := (path ++ "/").isPrefixOf p
  path == around.directory || within around.directory || around.files.entries.any fun (p, _) => within p

/-- The file of a path, whose way leads through directories only. -/
def file? (around : Surroundings) (path : String) : Option (List UInt8) :=
  let segs := Path.segments path.toList
  let way (n : Nat) : String :=
    Path.resolve around.directory (String.ofList (List.intercalate ['/'] (segs.take n)))
  let leads (n : Nat) : Bool := (segs.take n).all List.isEmpty || around.isDirectory (way n)
  match segs.getLast? with
  | some last =>
    if last = [] ∨ last = ['.'] ∨ last = ['.', '.'] then none
    else if (List.range segs.length).all leads then
      around.files.find? (Path.resolve around.directory path)
    else none
  | none => none

end Surroundings

namespace Settings

/-- The file of the working directory. -/
def localFile : String := "docprog-dev.env"

/-- The file that comes with the program. -/
def bundledFile : String := "docprog.env"

/-- The assignments that come with the program. -/
def bundled : List Assignment := [
  ("DOCPROG_HOST", some "localhost"), ("DOCPROG_PORT", some "6379"),
  ("DOCPROG_BUCKET_NAME", some "default"), ("DOCPROG_IO_POOL_SIZE", some "4"),
  ("DOCPROG_COMPUTATION_POOL_SIZE", some "4"), ("DOCPROG_KV_ENDPOINTS", some "2")]

/-- Why settings cannot be loaded. -/
inductive LoadProblem
  /-- Fields that are not in order. -/
  | fields (problems : List (String × Problem))
  /-- A file that holds no text. -/
  | octets (stop : Text.Utf8.Stop)

/-- The number of problems, in words. -/
def countText (problems : List (String × Problem)) : String :=
  match problems with
  | [_] => "1 validation error for DocStoreSettings"
  | ps => s!"{Numeral.text ps.length} validation errors for DocStoreSettings"

/-- The error of a problem. -/
def LoadProblem.fault : LoadProblem → Fault
  | .fields ps => .foreign .invalidRecord (some (.text (countText ps))) 0
  | .octets e => .foreign .malformedText (some (.text e.message)) 0

/-- The assignments of a file; none if there is no such file. -/
def readFile (around : Surroundings) (path : String) : Except LoadProblem (List Assignment) :=
  match around.files.find? path with
  | none => .ok []
  | some octets =>
    match Text.Utf8.decode octets with
    | .ok text => .ok (readAssignments around.environment text)
    | .error e => .error (.octets e)

/-- Settings read from the environment and from a file. -/
def readLayers (around : Surroundings) (path : String) : Except LoadProblem Settings := do
  let assignments ← readFile around path
  (ofLayers ⟨[], around.environment, [bundled, assignments]⟩).mapError .fields

/-- Settings made from arguments and the environment alone. -/
def ofArguments (environment : List (String × String)) (arguments : List (String × Value)) :
    Except LoadProblem Settings :=
  (ofLayers ⟨arguments, environment, []⟩).mapError .fields

/-! ## Loaded settings -/

/-- Settings, and the number of the load that made them. -/
structure Loaded where
  serial : Nat
  settings : Settings

/-- What has been loaded, by path, and the number of loads. -/
structure Cache where
  entries : Table String Loaded
  loads : Nat

/-- Nothing has been loaded. -/
def Cache.empty : Cache := ⟨.empty, 0⟩

/-- Loads the settings of a file, the one of the working directory if none is named; what is kept for it
is given out unless a new load is forced. -/
def Cache.load (c : Cache) (around : Surroundings) (file : Option String) (force : Bool) :
    Except LoadProblem (Loaded × Cache) :=
  let path := Path.resolve around.directory (file.getD localFile)
  match if force then none else c.entries.find? path with
  | some loaded => .ok (loaded, c)
  | none =>
    match readLayers around path with
    | .error e => .error e
    | .ok settings =>
      let loaded := ⟨c.loads, settings⟩
      .ok (loaded, ⟨c.entries.insert path loaded, c.loads + 1⟩)

end Settings

end CasStore
