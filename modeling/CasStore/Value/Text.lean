import CasStore.Decimal.Shortest
import CasStore.Text.Quoted
import CasStore.Value

/-!
# Values as text

A value has two texts.  `Value.shown` is unambiguous: strings stand in quotes and every other value
names its type.  `Value.plain` is the plain one, a string as it is and an error by its message.
-/

namespace CasStore

open Decimal Text

/-! ## Algorithm -/

/-- `items` between `start` and `stop`, commas in between. -/
def enclose (start stop : String) (items : List String) : String :=
  start ++ String.intercalate ", " items ++ stop

/-- The set of positions, as shown. -/
def IndexSet.shown (s : IndexSet) : String :=
  if s.toList.isEmpty then "frozenset()"
  else enclose "frozenset(\x7b" "\x7d)" (s.toList.map Numeral.text)

/-- A list of a fixed length, as shown: a single element keeps its comma. -/
def shownTuple : List String → String
  | [x] => "(" ++ x ++ ",)"
  | xs => enclose "(" ")" xs

/-- A version, as shown. -/
def Version.shown (v : Version) : String := s!"VersionToken(value={Numeral.text v.number})"

mutual

/-- The unambiguous text of a value. -/
def Value.shown : Value → String
  | .null => "None"
  | .bool b => if b then "True" else "False"
  | .int i => Numeral.text i
  | .float x => floatText.render x
  | .text s => quoted s
  | .list vs => enclose "[" "]" (shownValues vs)
  | .record fs => enclose "\x7b" "\x7d" (shownFields fs)
  | .key k => s!"Key(value={quoted k.value})"
  | .version v => v.shown
  | .document c v => s!"DocumentValue(content={c.shown}, version={v.shown})"
  | .user u => s!"User(id={Numeral.text u.id}, name={quoted u.name})"
  | .typed x v => s!"Typed(value={x.shown}, version={v.shown})"
  | .outcome ⟨s, fs⟩ =>
    s!"BatchOutcome(succeeded={s.shown}, failures={shownTuple (shownFailures fs)})"
  | .fault f => f.shown

/-- The unambiguous text of an error. -/
def Fault.shown : Fault → String
  | .store ⟨kind, message, category, _, _, cause, _, _, index, _⟩ =>
    match kind with
    | .batchItem => s!"BatchItemFailure(index={Numeral.text index}, cause={shownCause cause})"
    | _ => s!"{kind.name}({message.shown}, category={category.name})"
  | .foreign .driverResponse _ _ => "server:ResponseError"
  | .foreign .driverConnection _ _ => "network:ConnectionError"
  | .foreign .driverTimeout _ _ => "network:TimeoutError"
  | .foreign kind none _ => kind.name ++ "()"
  | .foreign kind (some v) _ => s!"{kind.name}({v.shown})"

/-- The unambiguous text of a cause that may be missing. -/
def shownCause : Option Fault → String
  | none => "None"
  | some f => f.shown

/-- The unambiguous texts of a list of values. -/
def shownValues : List Value → List String
  | [] => []
  | v :: vs => v.shown :: shownValues vs

/-- The unambiguous texts of named values. -/
def shownFields : List (String × Value) → List String
  | [] => []
  | (name, v) :: fs => (quoted name ++ ": " ++ v.shown) :: shownFields fs

/-- The unambiguous texts of failure records. -/
def shownFailures : List (ItemFailure Fault) → List String
  | [] => []
  | ⟨i, cause⟩ :: fs =>
    s!"BatchItemFailure(index={Numeral.text i}, cause={cause.shown})" :: shownFailures fs

end

/-- `i` has no more digits than can be written. -/
def isWritable (i : Int) : Bool := (Numeral.write i).isOk

mutual

/-- All numbers in the unambiguous text of a value can be written. -/
def Value.isPrintable : Value → Bool
  | .int i => isWritable i
  | .list vs => printableValues vs
  | .record fs => printableFields fs
  | .version v => isWritable v.number
  | .document c v => c.isPrintable && isWritable v.number
  | .user u => isWritable u.id
  | .typed x v => x.isPrintable && isWritable v.number
  | .outcome ⟨s, fs⟩ => s.toList.all isWritable && printableFailures fs
  | .fault f => f.isPrintable
  | .null | .bool _ | .float _ | .text _ | .key _ => true

/-- All numbers in the unambiguous text of an error can be written. -/
def Fault.isPrintable : Fault → Bool
  | .store ⟨kind, message, _, _, _, cause, _, _, index, _⟩ =>
    match kind with
    | .batchItem => isWritable index && printableCause cause
    | _ => message.isPrintable
  | .foreign .driverResponse _ _ | .foreign .driverConnection _ _ | .foreign .driverTimeout _ _ => true
  | .foreign _ none _ => true
  | .foreign _ (some v) _ => v.isPrintable

/-- All numbers in the unambiguous text of a cause can be written. -/
def printableCause : Option Fault → Bool
  | none => true
  | some f => f.isPrintable

/-- All numbers in the unambiguous texts of values can be written. -/
def printableValues : List Value → Bool
  | [] => true
  | v :: vs => v.isPrintable && printableValues vs

/-- All numbers in the unambiguous texts of named values can be written. -/
def printableFields : List (String × Value) → Bool
  | [] => true
  | (_, v) :: fs => v.isPrintable && printableFields fs

/-- All numbers in the unambiguous texts of failure records can be written. -/
def printableFailures : List (ItemFailure Fault) → Bool
  | [] => true
  | ⟨i, cause⟩ :: fs => isWritable i && cause.isPrintable && printableFailures fs

end

/-- The unambiguous text of a value, unless it holds a number that is too long to be written. -/
def Value.printed (v : Value) : Except Numeral.Problem String :=
  if v.isPrintable then .ok v.shown else .error .tooLarge

mutual

/-- The plain text of a value. -/
def Value.plain : Value → String
  | .text s => s
  | .key k => k.value
  | .version v => Numeral.text v.number
  | .user u => s!"id={Numeral.text u.id} name={quoted u.name}"
  | .fault f => f.message
  | v => v.shown

/-- The message of an error.  Of a missing entry it is the entry, as shown. -/
def Fault.message : Fault → String
  | .store ⟨_, message, _, _, _, _, _, _, _, _⟩ => message.plain
  | .foreign _ none _ => ""
  | .foreign .missingEntry (some v) _ => v.shown
  | .foreign _ (some v) _ => v.plain

end

mutual

/-- All numbers in the plain text of a value can be written. -/
def Value.isPlainPrintable : Value → Bool
  | .fault f => f.hasMessage
  | v => v.isPrintable

/-- All numbers in the message of an error can be written. -/
def Fault.hasMessage : Fault → Bool
  | .store ⟨_, message, _, _, _, _, _, _, _, _⟩ => message.isPlainPrintable
  | .foreign _ none _ => true
  | .foreign .missingEntry (some v) _ => v.isPrintable
  | .foreign _ (some v) _ => v.isPlainPrintable

end

/-! ## Equality -/

mutual

/-- The two errors are one.  A batch item's failures agree when position and cause do; all others when
they bear the same mark or, where neither is marked, the same kind and message. -/
def Fault.same : Fault → Fault → Bool
  | .store ⟨.batchItem, _, _, _, _, cause, _, _, i, _⟩,
      .store ⟨.batchItem, _, _, _, _, cause', _, _, i', _⟩ => i == i' && sameCause cause cause'
  | f, g =>
    if f.serial = 0 ∧ g.serial = 0 then f.kindName == g.kindName && f.message == g.message
    else f.serial == g.serial

/-- The two causes are one. -/
def sameCause : Option Fault → Option Fault → Bool
  | none, none => true
  | some f, some g => f.same g
  | _, _ => false

end

/-- The integer that a number without fraction equals. -/
def Value.integer? : Value → Option Int
  | .bool b => some (if b then 1 else 0)
  | .int i => some i
  | _ => none

mutual

/-- The two values are equal: numbers by value, whatever their type, all else by type and parts. -/
def Value.equal : Value → Value → Bool
  | .null, .null => true
  | .float x, .float y => x == y
  | .text s, .text t => s == t
  | .list vs, .list ws => equalValues vs ws
  | .record fs, .record gs => fs.length == gs.length && equalFields fs gs
  | .key k, .key l => k == l
  | .version v, .version w => v == w
  | .document c v, .document d w => c.equal d && v == w
  | .user u, .user w => u == w
  | .typed x v, .typed y w => x.equal y && v == w
  | .outcome ⟨s, fs⟩, .outcome ⟨t, gs⟩ => s == t && equalFailures fs gs
  | .fault f, .fault g => f.same g
  | v, w =>
    match v.integer?, w.integer? with
    | some i, some j => i == j
    | some i, none => match w with
      | .float y => Float.ofInt i == y
      | _ => false
    | none, some j => match v with
      | .float x => x == Float.ofInt j
      | _ => false
    | none, none => false

/-- The two lists of values are equal, element by element. -/
def equalValues : List Value → List Value → Bool
  | [], [] => true
  | v :: vs, w :: ws => v.equal w && equalValues vs ws
  | _, _ => false

/-- Every field of the first list is in the second, with an equal value. -/
def equalFields : List (String × Value) → List (String × Value) → Bool
  | [], _ => true
  | (name, v) :: fs, gs =>
    (match gs.find? (·.1 == name) with
      | some (_, w) => v.equal w
      | none => false) && equalFields fs gs

/-- The two lists of failure records are equal, record by record. -/
def equalFailures : List (ItemFailure Fault) → List (ItemFailure Fault) → Bool
  | [], [] => true
  | ⟨i, f⟩ :: fs, ⟨j, g⟩ :: gs => i == j && f.same g && equalFailures fs gs
  | _, _ => false

end

end CasStore
