import CasStore.Counter
import CasStore.Program.Command
import CasStore.Value.Text

/-!
# Replies as results

What comes back over the network has no fixed type.  `Wire.result` makes the result of a command from a
reply; where the reply has not the form it should have, the reading of it raises.

    a reply of the form that the scripts send is never raised over   (Proofs)
-/

namespace CasStore.Wire

/-! ## Reading dynamic values -/

/-- The character of `s` at `i`. -/
def character? (s : String) (i : Nat) : Option Char := s.toList[i]?

/-- The element of a value at `i`. -/
def element (i : Nat) : Value → Except Fault Value
  | .list vs =>
    match vs[i]? with
    | some v => .ok v
    | none => .error (.foreign .outOfRange (some (.text "list index out of range")) 0)
  | .text s =>
    match character? s i with
    | some c => .ok (.text c.toString)
    | none => .error (.foreign .outOfRange (some (.text "string index out of range")) 0)
  | .record _ => .error (.foreign .missingEntry (some (.int i)) 0)
  | v => .error (.wrongType s!"'{v.typeName}' object is not subscriptable")

/-- The integer part of a number. -/
def wholePart (x : Float) : Except Fault Int :=
  if x.isNaN then .error (.invalidValue "cannot convert float NaN to integer")
  else if x.isInf then
    .error (.foreign .overflow (some (.text "cannot convert float infinity to integer")) 0)
  else .ok (Decimal.truncate x)

/-- The integer that a value is or says. -/
def integer : Value → Except Fault Int
  | .int i => .ok i
  | .bool b => .ok (if b then 1 else 0)
  | .float x => wholePart x
  | .text s => (Numeral.read s).mapError Fault.ofNumeral
  | v => .error (.wrongType
      s!"int() argument must be a string, a bytes-like object or a real number, not '{v.typeName}'")

/-! ## Results -/

/-- The value of a counter content. -/
def counter (key : Key) : Value → Except Fault Result
  | .text s =>
    match Counter.read s with
    | .ok i => .ok (.ok (.int i))
    | .error .notCounter => .ok (.error (.notCounter key.value))
    | .error (.tooLong n) => .error (.ofNumeral (.tooLong n))
  | _ => .ok (.error (.notCounter key.value))

/-- A document with this content and the version that a value says. -/
def document (content version : Value) : Except Fault Result := do
  return .ok (.document content ⟨← integer version⟩)

/-- The result of a command, made from the reply to it. -/
def result (reply : Value) : Command → Except Fault Result
  | .get _ => do document (← element 0 reply) (← element 1 reply)
  | .create k content => do
    if (← element 0 reply).equal (.int 0) then return .error (.alreadyExists k.value)
    else document (.text content) (← element 1 reply)
  | .update k content expected => do
    if (← element 0 reply).equal (.int 2) then
      return .error (.versionConflict k.value expected ⟨← integer (← element 1 reply)⟩)
    else document (.text content) (← element 1 reply)
  | .remove _ => .ok (.ok .null)
  | .getCounter k => counter k reply
  | c@(.increment k _) => do
    if (← element 0 reply).equal (.int 0) then
      return .error ((Fault.notCounter k.value).within [("command", .text c.tag)])
    else return .ok (.int (← integer (← element 1 reply)))

end CasStore.Wire
