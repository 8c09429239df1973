import CasStore.Journal
import CasStore.Json

/-!
# What is shown

A command shows blocks on two screens, one for answers and one for errors, and ends with a status.  A
block is a line, a piece of JSON or a table; lines may hold markup.

    a success ends with status 0, a failure with status 1            (status_ofResult)
-/

namespace CasStore.CommandLine

/-- One thing that is shown. -/
inductive Block
  | line (markup : String)
  | json (v : Json)
  | table (title : Option String) (headers : List String) (rows : List (List String))

/-- What a command shows, what it writes without any markup, and its status. -/
structure Screen where
  out : List Block
  err : List Block
  written : String
  status : Nat

namespace Screen

/-- Nothing but a status. -/
def silent (status : Nat) : Screen := ⟨[], [], "", status⟩

/-- A command that succeeds. -/
def shows (blocks : List Block) : Screen := { silent 0 with out := blocks }

/-- A command that fails. -/
def fails (line : String) : Screen := { silent 1 with err := [.line line] }

end Screen

/-! ## Values as fields -/

mutual

/-- A value with its structures spread out as fields. -/
def spread : Value → Value
  | .list vs => .list (spreadAll vs)
  | .record fs => .record (spreadFields fs)
  | .key k => .record [("value", .text k.value)]
  | .version v => .record [("value", .int v.number)]
  | .document c v => .record [("content", spread c), ("version", .record [("value", .int v.number)])]
  | .typed x v => .record [("value", spread x), ("version", .record [("value", .int v.number)])]
  | v => v

/-- Values with their structures spread out. -/
def spreadAll : List Value → List Value
  | [] => []
  | v :: vs => spread v :: spreadAll vs

/-- Named values with their structures spread out. -/
def spreadFields : Fields → Fields
  | [] => []
  | (name, v) :: fs => (name, spread v) :: spreadFields fs

end

/-- The fields a value is shown with. -/
def fieldsOf : Value → Except Fault Fields
  | .document c v => .ok [("content", c), ("version", .int v.number)]
  | .outcome o => o.listing
  | .fault (.store d) => (Fault.store d).listing
  | .user u => .ok [("id", .int u.id), ("name", .text u.name)]
  | .key k => .ok [("value", .text k.value)]
  | .version v => .ok [("value", .int v.number)]
  | .typed x v => .ok [("value", spread x), ("version", .record [("value", .int v.number)])]
  | .record fs => .ok fs
  | v => .ok [("value", v)]

/-! ## Results -/

/-- A value in a cell of a table: nothing for null. -/
def cell : Value → Except Fault String
  | .null => .ok ""
  | v => Fault.writtenValue v

/-- The line that says what went wrong. -/
def errorLine (f : Fault) : Except Fault String :=
  f.written.map fun text =>
    match f with
    | .store d => s!"[bold red]Error[/bold red] ({d.category.name}): {text}"
    | .foreign _ _ _ => s!"[bold red]Error[/bold red]: {text}"

/-- What an error is in JSON output. -/
def errorFields : Fault → Except Fault Fields
  | .store d => (Fault.store d).listing
  | f => f.written.map fun text => [("message", .text text)]

/-- The object that JSON output consists of: whether it went well, and fields, which come last. -/
def envelope (ok : Bool) (fs : Fields) : Block :=
  .json (.object (fs.foldl (fun acc (name, v) => Json.setField name (Json.ofValue v) acc) [("ok", .bool ok)]))

/-- A table of fields. -/
def fieldTable (title : String) (fs : Fields) : Except Fault Block := do
  let rows ← fs.mapM fun (name, v) => (cell v).map fun text => [name, text]
  return .table (if title = "" then none else some title) ["field", "value"] rows

/-- The block of a success. -/
def valueBlock (json : Bool) (title : String) (v : Value) : Except Fault Block := do
  let fs ← fieldsOf v
  if json then return envelope true fs else fieldTable title fs

/-- Shows a result. -/
def Screen.ofResult (json : Bool) (title : String) : Result → Except Fault Screen
  | .ok v => (valueBlock json title v).map fun block => .shows [block]
  | .error e =>
    if json then (errorFields e).map fun fs =>
      { Screen.silent 1 with out := [envelope false [("error", .record fs)]] }
    else (errorLine e).map .fails

/-- Shows what stands in place of a result: nothing, if it is none. -/
def Screen.ofLoose (json : Bool) (title : String) : LooseResult → Except Fault Screen
  | .inl r => ofResult json title r
  | .inr _ => .ok (silent 0)

/-! ## Listings -/

/-- Texts as a value. -/
def textsValue (ss : List String) : Value := .list (ss.map .text)

/-- A block as a value. -/
def Block.listing : Block → Value
  | .line markup => .text markup
  | .json v => .record [("json", v.toValue)]
  | .table title headers rows => .record [("table", Fault.optionText title),
      ("headers", textsValue headers), ("rows", .list (rows.map textsValue))]

/-- The fields of a screen.  What is written without markup is left out when there is none. -/
def Screen.listing (s : Screen) : Fields :=
  let shown := [("exit", Value.int s.status), ("out", .list (s.out.map Block.listing)),
    ("err", .list (s.err.map Block.listing))]
  if s.written = "" then shown else shown ++ [("stdout", .text s.written)]

/-! ## Lemmas -/

theorem status_ofResult {json : Bool} {title : String} {r : Result} {s : Screen}
    (h : Screen.ofResult json title r = .ok s) : s.status = if r.isOk then 0 else 1 := by
  cases r with
  | ok v =>
    simp only [Screen.ofResult] at h
    cases hb : valueBlock json title v <;> rw [hb] at h <;> cases h
    rfl
  | error e =>
    cases json with
    | false =>
      simp only [Screen.ofResult] at h
      cases hl : errorLine e <;> simp only [hl] at h <;> cases h
      rfl
    | true =>
      simp only [Screen.ofResult] at h
      cases hf : errorFields e <;> simp only [hf] at h <;> cases h
      rfl

end CasStore.CommandLine
