import CasStore.Json

/-!
# Reading JSON

`Json.read` reads a text that holds exactly one value.  A refusal says what was expected, and where:
positions count characters, and lines end at line feeds.  Besides the standard's values the numbers
`NaN`, `Infinity` and `-Infinity` are read.  `Limits` say how deep values may be nested, and how long
numbers may be.

    of several fields of one name the last one's value counts, in the first one's place   (setField)
-/

namespace CasStore.Json

open Numeral

/-- What is wrong with a text. -/
inductive Reason
  | value
  | name
  | colon
  | comma
  | extraData
  | unterminated
  | controlCharacter
  | escape
  | unicodeEscape
  | byteOrderMark
  deriving DecidableEq, Repr

/-- The wording of a reason. -/
def Reason.text : Reason → String
  | .value => "Expecting value"
  | .name => "Expecting property name enclosed in double quotes"
  | .colon => "Expecting ':' delimiter"
  | .comma => "Expecting ',' delimiter"
  | .extraData => "Extra data"
  | .unterminated => "Unterminated string starting at"
  | .controlCharacter => "Invalid control character at"
  | .escape => "Invalid \\escape"
  | .unicodeEscape => "Invalid \\uXXXX escape"
  | .byteOrderMark => "Unexpected UTF-8 BOM (decode using utf-8-sig)"

/-- Why reading stopped: at a place, which is given by the number of characters left there, at a number
of too many digits, or at a list or an object that is nested too deep. -/
inductive Stop
  | at (reason : Reason) (left : Nat)
  | tooLong (digits : Nat)
  | tooDeep (isList : Bool)
  deriving DecidableEq, Repr

/-- What a text may hold at most. -/
structure Limits where
  /-- How many lists and objects that hold something may be nested. -/
  depth : Option Nat
  /-- Whether the limit of digits holds for what stands before the point of any number, or else for
  integers only. -/
  allNumbers : Bool

/-! ## Strings -/

/-- The value of a hexadecimal digit. -/
def hexValue? (c : Char) : Option Nat :=
  if '0' ≤ c ∧ c ≤ '9' then some (c.toNat - 48)
  else if 'a' ≤ c ∧ c ≤ 'f' then some (c.toNat - 87)
  else if 'A' ≤ c ∧ c ≤ 'F' then some (c.toNat - 55)
  else none

/-- The value of four hexadecimal digits. -/
def hexValue4? (a b c d : Char) : Option Nat := do
  let a ← hexValue? a
  let b ← hexValue? b
  let c ← hexValue? c
  let d ← hexValue? d
  return 4096 * a + 256 * b + 16 * c + d

/-- The character that a letter after a backslash stands for. -/
def escaped? : Char → Option Char
  | '"' => some '"'
  | '\\' => some '\\'
  | '/' => some '/'
  | 'b' => some '\x08'
  | 'f' => some '\x0c'
  | 'n' => some '\n'
  | 'r' => some '\r'
  | 't' => some '\t'
  | _ => none

/-- The character of a code unit that stands alone; half a pair becomes the replacement character. -/
def ofUnit (n : Nat) : Char := if 0xd800 ≤ n ∧ n < 0xe000 then '\ufffd' else Char.ofNat n

/-- The character of a pair of code units. -/
def ofPair (high low : Nat) : Char := Char.ofNat (0x10000 + (high - 0xd800) * 0x400 + (low - 0xdc00))

/-- The second unit of a pair, where it comes next and is not the last thing there is. -/
def lowUnit? : List Char → Option (Nat × List Char)
  | '\\' :: 'u' :: a :: b :: c :: d :: rest =>
    match hexValue4? a b c d with
    | some n => if 0xdc00 ≤ n ∧ n < 0xe000 ∧ rest ≠ [] then some (n, rest) else none
    | none => none
  | _ => none

theorem lowUnit?_length {cs rest : List Char} {n : Nat} (h : lowUnit? cs = some (n, rest)) :
    rest.length < cs.length := by
  unfold lowUnit? at h
  split at h
  · split at h
    · split at h
      · cases h; simp only [List.length_cons]; omega
      · cases h
    · cases h
  · cases h

/-- Reads a string up to its closing quote. `start` characters were left at the opening one. -/
def readString (start : Nat) : List Char → Except Stop (List Char × List Char)
  | [] => .error (.at .unterminated start)
  | '"' :: rest => .ok ([], rest)
  | '\\' :: 'u' :: a :: b :: c :: d :: rest =>
    match hexValue4? a b c d, rest with
    | none, _ | _, [] => .error (.at .unicodeEscape (rest.length + 5))
    | some n, rest =>
      match _h : if 0xd800 ≤ n ∧ n < 0xdc00 then lowUnit? rest else none with
      | some (m, rest') => do
        let (cs, rest) ← readString start rest'
        return (ofPair n m :: cs, rest)
      | none => do
        let (cs, rest) ← readString start rest
        return (ofUnit n :: cs, rest)
  | '\\' :: 'u' :: rest => .error (.at .unicodeEscape (rest.length + 1))
  | ['\\'] => .error (.at .unterminated start)
  | '\\' :: c :: rest =>
    match escaped? c with
    | none => .error (.at .escape (rest.length + 2))
    | some c => do
      let (cs, rest) ← readString start rest
      return (c :: cs, rest)
  | c :: rest =>
    if c.toNat < 0x20 then .error (.at .controlCharacter (rest.length + 1))
    else do
      let (cs, rest) ← readString start rest
      return (c :: cs, rest)
termination_by cs => cs.length
decreasing_by
  · split at _h
    · have := lowUnit?_length _h
      simp only [List.length_cons]
      omega
    · cases _h
  all_goals simp only [List.length_cons]; omega

/-! ## Numbers -/

/-- The digits of a fraction, if a point and a digit come next. -/
def readFraction : List Char → List Char × List Char
  | '.' :: d :: rest =>
    if d.isDigit then ((d :: rest).takeWhile Char.isDigit, (d :: rest).dropWhile Char.isDigit)
    else ([], '.' :: d :: rest)
  | cs => ([], cs)

/-- A power of ten, if one comes next. -/
def readExponent : List Char → Option Int × List Char
  | e :: rest =>
    if e = 'e' ∨ e = 'E' then
      let (negative, signed) :=
        match rest with
        | '-' :: d :: r => (true, d :: r)
        | '+' :: d :: r => (false, d :: r)
        | r => (false, r)
      let ds := signed.takeWhile Char.isDigit
      if ds.isEmpty then (none, e :: rest)
      else (some (if negative then -(value ds : Int) else value ds), signed.dropWhile Char.isDigit)
    else (none, e :: rest)
  | [] => (none, [])

/-- Reads a number without its sign: a zero or digits that do not start with one, then perhaps a
fraction and a power of ten. -/
def readUnsigned (l : Limits) (start : Nat) (negative : Bool) (cs : List Char) :
    Except Stop (Json × List Char) :=
  match cs with
  | c :: cs' =>
    if c.isDigit then
      let whole := if c = '0' then [c] else cs.takeWhile Char.isDigit
      let rest := if c = '0' then cs' else cs.dropWhile Char.isDigit
      let (fraction, rest) := readFraction rest
      if l.allNumbers && maxDigits < whole.length then .error (.tooLong whole.length)
      else match readExponent rest with
      | (none, rest) =>
        if fraction.isEmpty then
          if maxDigits < whole.length then .error (.tooLong whole.length)
          else .ok (.int (if negative then -(value whole : Int) else value whole), rest)
        else .ok (.float (Decimal.nearest negative (value (whole ++ fraction)) (-fraction.length)), rest)
      | (some e, rest) =>
        .ok (.float (Decimal.nearest negative (value (whole ++ fraction)) (e - fraction.length)), rest)
    else .error (.at .value start)
  | [] => .error (.at .value start)

/-! ## Values -/

/-- The blanks between tokens. -/
def isSpace (c : Char) : Bool := c == ' ' || c == '\t' || c == '\n' || c == '\r'

/-- `cs` without the blanks in front. -/
def skipSpace (cs : List Char) : List Char := cs.dropWhile isSpace

/-- What follows `word` in `cs`. -/
def afterWord? (word : String) (cs : List Char) : Option (List Char) :=
  if word.toList.isPrefixOf cs then some (cs.drop word.length) else none

/-- A number, or one of the words that stand for a value. -/
def readScalar (l : Limits) (cs : List Char) : Except Stop (Json × List Char) :=
  let words : List (String × Json) := [
    ("null", .null), ("true", .bool true), ("false", .bool false), ("NaN", .float (0.0 / 0.0)),
    ("Infinity", .float (1.0 / 0.0)), ("-Infinity", .float (-1.0 / 0.0))]
  match words.findSome? fun (w, v) => (afterWord? w cs).map fun rest => (v, rest) with
  | some found => .ok found
  | none =>
    match cs with
    | '-' :: rest => readUnsigned l cs.length true rest
    | cs => readUnsigned l cs.length false cs

/-- Whether one more list or object may be opened inside `opened` others. -/
def Limits.admits (l : Limits) (opened : Nat) : Bool := l.depth.all (opened < ·)

mutual

/-- Reads one value inside `opened` lists and objects.  The first number bounds the depth of the
calls. -/
def readValue (l : Limits) : Nat → Nat → List Char → Except Stop (Json × List Char)
  | 0, _, cs => .error (.at .value cs.length)
  | _ + 1, _, '"' :: rest => do
    let (s, rest) ← readString (rest.length + 1) rest
    return (.text (String.ofList s), rest)
  | n + 1, opened, '{' :: rest =>
    match skipSpace rest with
    | '}' :: rest => .ok (.object [], rest)
    | rest =>
      if l.admits opened then do
        let (fs, rest) ← readFields l n (opened + 1) [] rest
        return (.object fs, rest)
      else .error (.tooDeep false)
  | n + 1, opened, '[' :: rest =>
    match skipSpace rest with
    | ']' :: rest => .ok (.list [], rest)
    | rest =>
      if l.admits opened then do
        let (vs, rest) ← readElements l n (opened + 1) rest
        return (.list vs, rest)
      else .error (.tooDeep true)
  | _ + 1, _, cs => readScalar l cs

/-- Reads the fields of an object up to its end. -/
def readFields (l : Limits) : Nat → Nat → List (String × Json) → List Char →
    Except Stop (List (String × Json) × List Char)
  | 0, _, _, cs => .error (.at .name cs.length)
  | n + 1, opened, fs, '"' :: rest => do
    let (name, rest) ← readString (rest.length + 1) rest
    match skipSpace rest with
    | ':' :: rest =>
      let (v, rest) ← readValue l n opened (skipSpace rest)
      let fs := setField (String.ofList name) v fs
      match skipSpace rest with
      | '}' :: rest => return (fs, rest)
      | ',' :: rest => readFields l n opened fs (skipSpace rest)
      | rest => .error (.at .comma rest.length)
    | rest => .error (.at .colon rest.length)
  | _ + 1, _, _, cs => .error (.at .name cs.length)

/-- Reads the elements of a list up to its end. -/
def readElements (l : Limits) : Nat → Nat → List Char → Except Stop (List Json × List Char)
  | 0, _, cs => .error (.at .value cs.length)
  | n + 1, opened, cs => do
    let (v, rest) ← readValue l n opened cs
    match skipSpace rest with
    | ']' :: rest => return ([v], rest)
    | ',' :: rest =>
      let (vs, rest) ← readElements l n opened (skipSpace rest)
      return (v :: vs, rest)
    | rest => .error (.at .comma rest.length)

end

/-- Reads a whole text. -/
def readAll (l : Limits) (cs : List Char) : Except Stop Json :=
  match cs with
  | '\ufeff' :: _ => .error (.at .byteOrderMark cs.length)
  | _ => do
    let (v, rest) ← readValue l (cs.length + 1) 0 (skipSpace cs)
    match skipSpace rest with
    | [] => return v
    | rest => .error (.at .extraData rest.length)

/-! ## Messages -/

/-- The wording of a refusal of `cs`: what was expected, and the line, column and position. -/
def Stop.message (cs : List Char) : Stop → String
  | .tooLong n => (Numeral.Problem.tooLong n).message
  | .tooDeep isList =>
    let container := if isList then "array" else "object"
    s!"maximum recursion depth exceeded while decoding a JSON {container} from a unicode string"
  | .at reason left =>
    let seen := cs.take (cs.length - left)
    let line := seen.count '\n' + 1
    let column := (seen.reverse.takeWhile (· != '\n')).length + 1
    s!"{reason.text}: line {line} column {column} (char {seen.length})"

/-- The error of a refusal of `cs`. -/
def Stop.fault (cs : List Char) (e : Stop) : Fault :=
  let kind := match e with
    | .at _ _ => ForeignKind.malformedJson
    | .tooLong _ => .invalidValue
    | .tooDeep _ => .depth
  .foreign kind (some (.text (e.message cs))) 0

/-- Reads a text as one value. -/
def read (l : Limits) (s : String) : Except Fault Json :=
  match readAll l s.toList with
  | .ok v => .ok v
  | .error e => .error (e.fault s.toList)

/-! ## Units outside pairs -/

/-- Every escaped unit of a surrogate pair stands in a pair. -/
def unitsPaired : List Char → Bool
  | '\\' :: 'u' :: a :: b :: c :: d :: rest =>
    match hexValue4? a b c d with
    | none => unitsPaired rest
    | some n =>
      if 0xd800 ≤ n ∧ n < 0xdc00 then
        match rest with
        | '\\' :: 'u' :: a :: b :: c :: d :: rest =>
          match hexValue4? a b c d with
          | some m => decide (0xdc00 ≤ m ∧ m < 0xe000) && unitsPaired rest
          | none => false
        | _ => false
      else decide (n < 0xdc00 ∨ 0xe000 ≤ n) && unitsPaired rest
  | '\\' :: _ :: rest => unitsPaired rest
  | _ :: rest => unitsPaired rest
  | [] => true

end CasStore.Json
