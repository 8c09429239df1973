import CasStore.Json.Reader
import CasStore.Program
import CasStore.Text.Lines
import CasStore.Text.Utf8

/-!
# Files of records

A file of records holds one JSON object a line, and one field of each names a key.  `Records.items` are
the batch items that create a document for each record, with the line as its content.

A file that is no UTF-8 is found out when its first line is pulled, unless only its end is cut short:
that is found out after the last line that has ended, and positions count from where the end begins.
-/

namespace CasStore.CommandLine.Records

open Text

/-! ## Lines -/

/-- `cs` without a carriage return at its end, which may be the first half of a line end. -/
def withoutOpenReturn (cs : List Char) : List Char :=
  if cs.getLast? = some '\r' then cs.dropLast else cs

/-- The error of octets that are no text. -/
def noText (e : Utf8.Stop) : Fault := .foreign .malformedText (some (.text e.message)) 0

/-- The lines of a file, as far as it can be read, and why it cannot be read further. -/
def lines (octets : List UInt8) : List (List Char) × Option Fault :=
  match Utf8.decodeFrom 0 octets with
  | (cs, none) => (allLines (unifyLineEnds cs), none)
  | (cs, some e) =>
    if e.atEnd octets then
      ((splitLines (unifyLineEnds (withoutOpenReturn cs))).1, some (noText { e with position := 0 }))
    else ([], some (noText e))

/-! ## Records -/

/-- The value of a field of a record. -/
def field (name : String) : Json → Except Fault Value
  | .object fs =>
    match fs.lookup name with
    | some v => .ok v.toValue
    | none => .error (.foreign .missingEntry (some (.text name)) 0)
  | .list _ => .error (.wrongType "list indices must be integers or slices, not str")
  | .text _ => .error (.wrongType "string indices must be integers, not 'str'")
  | v => .error (.wrongType s!"'{v.toValue.typeName}' object is not subscriptable")

/-- What a record may hold at most. -/
def limits : Json.Limits := ⟨some 955, false⟩

/-- The key that a line names. -/
def key (name : String) (line : String) : Except Fault Value := do
  field name (← Json.read limits line)

/-- The failure of a line that is no record. -/
def badRecord (e : Fault) : Except Fault Fault :=
  e.written.map fun text => .decode s!"Bad record: {text}" (some e)

variable {σ : Type}

/-- The batch item of a line.  A line that is nested too deep ends the file. -/
def item (name : String) (line : String) : Except Fault (Item (Program σ)) :=
  match key name line with
  | .ok v => .ok (.record (Program.pure (.text v.plain)) (trim line))
  | .error e => if e.kindName = ForeignKind.depth.name then .error e else (badRecord e).map .failed

/-- Pulling an item, or what stands in its place. -/
def pulled (i : Except Fault (Item (Program σ))) : σ → Reply σ (Item (Program σ)) := fun s =>
  match i with
  | .ok i => .ok i s
  | .error e => .error e s

/-- The items of a file, each made when it is pulled; lines of blanks are passed over. -/
def items (name : String) (octets : List UInt8) : List (σ → Reply σ (Item (Program σ))) :=
  let (ls, stop) := lines octets
  let made := (ls.filter fun l => !l.all isBlank).map fun l => pulled (item name (String.ofList l))
  match stop with
  | none => made
  | some e => made ++ [pulled (.error e)]

end CasStore.CommandLine.Records
