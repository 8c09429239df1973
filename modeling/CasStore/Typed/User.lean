import CasStore.Json.Reader
import CasStore.Settings.Number
import CasStore.Typed

/-!
# Users as JSON

Users are stored as JSON objects with the fields `id` and `name`.  Reading is lenient: other fields are
passed over, and the id may be given as a number without fraction, as a truth value or as a text.

    what is written is read back                                     (Proofs)
-/

namespace CasStore

namespace User

/-! ## Algorithm -/

/-- A user as JSON. -/
def toJson (u : User) : Json := .object [("id", .int u.id), ("name", .text u.name)]

/-- The content that holds a user. -/
def serialize (u : User) : String := String.ofList u.toJson.compact

/-- The greatest magnitude of a fractional number that is taken for a whole one. -/
def greatestFractional : Float := 9223372036854775808.0

/-- The id that a JSON value gives. -/
def idOf? : Json → Option Int
  | .int i => some i
  | .bool b => some (if b then 1 else 0)
  | .float x =>
    if -greatestFractional < x && x < greatestFractional then Decimal.wholePart? x else none
  | .text s => (Settings.wholeNumber s).toOption
  | _ => none

/-- The name that a JSON value gives. -/
def nameOf? : Json → Option String
  | .text s => some s
  | _ => none

/-- The user that the fields of an object give, or the number of fields that are not in order. -/
def ofFields (fields : List (String × Json)) : Except Nat User :=
  match (fields.lookup "id").bind idOf?, (fields.lookup "name").bind nameOf? with
  | some id, some name => .ok ⟨id, name⟩
  | none, none => .error 2
  | _, _ => .error 1

/-- What a content may hold at most. -/
def limits : Json.Limits := ⟨some 200, true⟩

/-- The user that a content holds, or the number of things that are not in order. -/
def parse (content : String) : Except Nat User :=
  match Json.read limits content with
  | .ok (.object fields) => if Json.unitsPaired content.toList then ofFields fields else .error 1
  | _ => .error 1

/-- The name that the record type goes by. -/
def modelName : String := "User"

/-- The codec of users as shown. -/
def shownCodec : String := s!"JsonCodec({modelName})"

/-- The error of a content that holds no user. -/
def invalid (problems : Nat) : Fault :=
  (Fault.decode s!"Content is not a valid {modelName}: {Numeral.text problems} error(s)"
    (some (.foreign .invalidRecord (some (.text "<validation>")) 0))).within
    [("model", .text modelName)]

/-- Reads the user that a content holds. -/
def deserialize : Value → Result
  | .text content =>
    match parse content with
    | .ok u => .ok (.user u)
    | .error n => .error (invalid n)
  | _ => .error (invalid 1)

end User

/-- The codec of users: a function of the caller's derives the keys. -/
def userCodec {σ : Type} (key : Value → σ → Reply σ Value) : Codec σ where
  serialize := fun v s =>
    match v with
    | .user u => .ok u.serialize s
    | v => .error (Fault.noPart v "model_dump_json") s
  deserialize := fun content s => .ok (User.deserialize content) s
  keyFor := fun v s =>
    match key v s with
    | .error e s => .error e s
    | .ok raw s =>
      match Key.ofValue raw with
      | .ok k => .ok k s
      | .error e => .error e s

end CasStore
