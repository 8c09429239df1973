import CasStore.Fault

/-!
# Commands

The six things that can be asked of one document.  A command is plain data and names its document;
`Command.summary` describes it without its content.
-/

namespace CasStore

/-- One request about one document. -/
inductive Command
  | get (key : Key)
  | create (key : Key) (content : String)
  | update (key : Key) (content : String) (version : Version)
  | remove (key : Key)
  | getCounter (key : Key)
  | increment (key : Key) (delta : Int)
  deriving DecidableEq

namespace Command

/-- The document a command is about. -/
def key : Command → Key
  | .get k | .create k _ | .update k _ _ | .remove k | .getCounter k | .increment k _ => k

/-- The name of a command. -/
def tag : Command → String
  | .get _ => "get"
  | .create _ _ => "create"
  | .update _ _ _ => "update"
  | .remove _ => "remove"
  | .getCounter _ => "get_counter"
  | .increment _ _ => "increment_counter"

/-- What a command consists of besides its name. -/
def parts : Command → List Value
  | .get k | .remove k | .getCounter k => [.key k]
  | .create k c => [.key k, .text c]
  | .update k c v => [.key k, .text c, .version v]
  | .increment k d => [.key k, .int d]

/-- The command of a name with these parts. -/
def ofParts? (tag : String) (parts : List Value) : Option Command :=
  match tag, parts with
  | "get", [.key k] => some (.get k)
  | "remove", [.key k] => some (.remove k)
  | "get_counter", [.key k] => some (.getCounter k)
  | "create", [.key k, .text c] => some (.create k c)
  | "update", [.key k, .text c, .version v] => some (.update k c v)
  | "increment_counter", [.key k, .int d] => some (.increment k d)
  | _, _ => none

/-- A command's name, its key and its number, if it has one; never its content. -/
def summary (c : Command) : List (String × Value) :=
  [("command", .text c.tag), ("key", .text c.key.value)] ++
    match c with
    | .update _ _ v => [("version", .int v.number)]
    | .increment _ d => [("delta", .int d)]
    | _ => []

/-- A command as shown. -/
def shown : Command → String
  | .get k => s!"Get(key={(Value.key k).shown})"
  | .create k c => s!"Create(key={(Value.key k).shown}, content={Text.quoted c})"
  | .update k c v =>
    s!"Update(key={(Value.key k).shown}, content={Text.quoted c}, version={v.shown})"
  | .remove k => s!"Remove(key={(Value.key k).shown})"
  | .getCounter k => s!"GetCounter(key={(Value.key k).shown})"
  | .increment k d => s!"IncrementCounter(key={(Value.key k).shown}, delta={Numeral.text d})"

/-- All numbers in a command as shown can be written. -/
def isPrintable : Command → Bool
  | .update _ _ v => (Value.version v).isPrintable
  | .increment _ d => isWritable d
  | _ => true

end Command

/-- The key that a value names: a key itself, or a text that is not empty. -/
def Key.ofValue : Value → Except Fault Key
  | .key k => .ok k
  | .text s =>
    match Key.ofString? s with
    | some k => .ok k
    | none => .error (.invalidValue s!"Key must be a non-empty string, got {Text.quoted s}")
  | v =>
    match v.printed with
    | .ok text => .error (.invalidValue s!"Key must be a non-empty string, got {text}")
    | .error p => .error (.ofNumeral p)

end CasStore
