import CasStore.Fault

/-!
# JSON values and their compact text

`Json.compact` writes a value without blanks.  In a string only the quote, the backslash and the
controls below the space are escaped.
-/

namespace CasStore

/-- A JSON value.  The names of an object's fields are distinct. -/
inductive Json
  | null
  | bool (b : Bool)
  | int (i : Int)
  | float (x : Float)
  | text (s : String)
  | list (vs : List Json)
  | object (fields : List (String × Json))

instance : Inhabited Json := ⟨.null⟩

namespace Json

/-! ## Algorithm -/

/-- One character of a string. -/
def escapeChar (c : Char) : List Char :=
  if c = '"' then ['\\', '"']
  else if c = '\\' then ['\\', '\\']
  else if c = '\x08' then ['\\', 'b']
  else if c = '\t' then ['\\', 't']
  else if c = '\n' then ['\\', 'n']
  else if c = '\x0c' then ['\\', 'f']
  else if c = '\r' then ['\\', 'r']
  else if c.toNat < 0x20 then '\\' :: 'u' :: Text.hexDigits 4 c.toNat
  else [c]

/-- A string in quotes. -/
def quote (s : String) : List Char := '"' :: s.toList.flatMap escapeChar ++ ['"']

mutual

/-- The text of a value, without blanks. -/
def compact : Json → List Char
  | .null => "null".toList
  | .bool b => if b then "true".toList else "false".toList
  | .int i => Numeral.digits i
  | .float x => (Decimal.floatText.render x).toList
  | .text s => quote s
  | .list vs => '[' :: compactList vs ++ [']']
  | .object fs => '{' :: compactFields fs ++ ['}']

/-- The elements of a list, with commas between. -/
def compactList : List Json → List Char
  | [] => []
  | [v] => v.compact
  | v :: w :: vs => v.compact ++ ',' :: compactList (w :: vs)

/-- The fields of an object, with commas between. -/
def compactFields : List (String × Json) → List Char
  | [] => []
  | [(name, v)] => quote name ++ ':' :: v.compact
  | (name, v) :: f :: fs => quote name ++ ':' :: v.compact ++ ',' :: compactFields (f :: fs)

end

/-- The field `name` of a list of fields set to `v`, in its old place if it has one. -/
def setField (name : String) (v : Json) : List (String × Json) → List (String × Json)
  | [] => [(name, v)]
  | (n, w) :: fs => if n = name then (name, v) :: fs else (n, w) :: setField name v fs

/-! ## Parts -/

/-- The elements of a list.  What is no list has none. -/
def elements : Json → List Json
  | .list vs => vs
  | _ => []

/-- The fields of an object.  What is no object has none. -/
def fields : Json → List (String × Json)
  | .object fs => fs
  | _ => []

/-- The value of a field. -/
def field? (j : Json) (name : String) : Option Json := j.fields.lookup name

instance : GetElem? Json String Json fun j name => (j.field? name).isSome where
  getElem j name h := (j.field? name).get h
  getElem? := field?

/-! ## As values -/

mutual

/-- A JSON value as a value. -/
def toValue : Json → Value
  | .null => .null
  | .bool b => .bool b
  | .int i => .int i
  | .float x => .float x
  | .text s => .text s
  | .list vs => .list (toValues vs)
  | .object fs => .record (toFields fs)

/-- The elements of a JSON list as values. -/
def toValues : List Json → List Value
  | [] => []
  | v :: vs => v.toValue :: toValues vs

/-- The fields of a JSON object as named values. -/
def toFields : List (String × Json) → List (String × Value)
  | [] => []
  | (name, v) :: fs => (name, v.toValue) :: toFields fs

end

mutual

/-- A value as JSON; what JSON has no form for is given as plain text. -/
def ofValue : Value → Json
  | .null => .null
  | .bool b => .bool b
  | .int i => .int i
  | .float x => .float x
  | .text s => .text s
  | .list vs => .list (ofValues vs)
  | .record fs => .object (ofFields fs)
  | v => .text v.plain

/-- Values as the elements of a JSON list. -/
def ofValues : List Value → List Json
  | [] => []
  | v :: vs => ofValue v :: ofValues vs

/-- Named values as the fields of a JSON object. -/
def ofFields : List (String × Value) → List (String × Json)
  | [] => []
  | (name, v) :: fs => (name, ofValue v) :: ofFields fs

end

end Json

end CasStore
