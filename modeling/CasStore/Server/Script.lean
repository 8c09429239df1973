import CasStore.Program.Command
import CasStore.Rounded
import CasStore.Server
import CasStore.Text.Pattern

/-!
# Requests and scripts

A request names the entry of a document and the sequence its versions are drawn from.  The server
carries it out by one of six scripts, without interruption, and replies with null, a number, a text or
a list.

    null                there is no document
    [0], [0, content]   the document exists already, or is no counter
    [1, version]        written; of an increment, [1, text of the sum]
    [2, version]        the document has another version than the one demanded
-/

namespace CasStore

/-- What is sent to the server: a command, and the names of a document and of a sequence. -/
structure Request where
  document : String
  sequence : String
  command : Command

namespace Request

/-- The name of the script that carries a request out. -/
def script (r : Request) : String :=
  match r.command with
  | .increment _ _ => "increment"
  | c => c.tag

/-- The names a request is about. -/
def names (r : Request) : List String := [r.document, r.sequence]

/-- What is sent besides the names. -/
def arguments (r : Request) : List Value :=
  match r.command with
  | .create _ content => [.text content]
  | .update _ content v => [.text content, .int v.number]
  | .increment _ delta => [.int delta]
  | _ => []

/-- Numbers are sent as text, and one of too many digits cannot be sent. -/
def obstacle? (r : Request) : Option Numeral.Problem :=
  r.arguments.findSome? fun v =>
    match v with
    | .int i => match Numeral.write i with
      | .ok _ => none
      | .error p => some p
    | _ => none

end Request

namespace Script

/-! ## Counter texts -/

/-- Space, tab, line feed, vertical tab, form feed or carriage return. -/
def isBlankByte (b : UInt8) : Bool := b == 32 || (9 ≤ b && b ≤ 13)

/-- Plus or minus. -/
def isSignByte (b : UInt8) : Bool := b == 43 || b == 45

/-- An ASCII digit. -/
def isDigitByte (b : UInt8) : Bool := 48 ≤ b && b ≤ 57

/-- Blanks, at most one sign, at least one digit, blanks. -/
def counterPattern : Text.Pattern UInt8 :=
  [⟨isBlankByte, .many⟩, ⟨isSignByte, .optional⟩, ⟨isDigitByte, .some⟩, ⟨isBlankByte, .many⟩]

/-- The octets of a text. -/
def octets (s : String) : List UInt8 := s.toUTF8.data.toList

/-- The whole number that octets of the counter pattern stand for. -/
def wholeNumber (bs : List UInt8) : Int :=
  let signed := bs.dropWhile isBlankByte
  let digits := (signed.dropWhile isSignByte).takeWhile isDigitByte
  let n : Nat := digits.foldl (fun n b => 10 * n + (b.toNat - 48)) 0
  if signed.head? = some 45 then -(n : Int) else n

/-! ## The scripts -/

/-- Writes content under a name with the next version of a sequence, which it returns.  Scripts have
versions as rounded numbers. -/
def write (r : Request) (content : String) : ServerCall Int := do
  let version := Rounded.word (← Server.next r.sequence)
  Server.put r.document ⟨content, ⟨version⟩⟩
  return version

/-- The reply to a write. -/
def written (version : Int) : Value := .list [.int 1, .int version]

/-- Writes the text of a number. -/
def writeNumber (r : Request) (x : Rounded) : ServerCall Value := do
  let text := Numeral.text x.toWord
  let _ ← write r text
  return .list [.int 1, .text text]

/-- Carries out a request. -/
def run (r : Request) : ServerCall Value := do
  match r.command with
  | .get _ =>
    match ← Server.document? r.document with
    | none => return .null
    | some d => return .list [.text d.content, .int (Rounded.word d.version.number)]
  | .create _ content =>
    if ← Server.holds r.document then return .list [.int 0]
    else return written (← write r content)
  | .update _ content expected =>
    match ← Server.document? r.document with
    | none => return .null
    | some d =>
      let current := Rounded.ofInt d.version.number
      let demanded := Rounded.ofInt expected.number
      if demanded ≠ .finite 0 ∧ current ≠ demanded then return .list [.int 2, .int current.toWord]
      else return written (← write r content)
  | .remove _ =>
    if ← Server.delete r.document then return .int 1 else return .null
  | .getCounter _ =>
    match ← Server.document? r.document with
    | none => return .null
    | some d => return .text d.content
  | .increment _ delta =>
    match ← Server.document? r.document with
    | none => writeNumber r (Rounded.ofInt delta)
    | some d =>
      if counterPattern.accepts (octets d.content) then
        writeNumber r ((Rounded.ofInt (wholeNumber (octets d.content))).add (Rounded.ofInt delta))
      else return .list [.int 0, .text d.content]

end Script

end CasStore
