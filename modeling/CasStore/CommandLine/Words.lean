/-!
# Options and operands

A command's words are options and operands.  An option has a long name after two dashes, and may have a
letter after one dash; letters may stand together.  An option that takes a value has it after an equals
sign, right after its letter, or in the next word, whatever that looks like.  After two dashes alone all
words are operands.
-/

namespace CasStore.CommandLine

/-- An option of a command. -/
structure Switch where
  name : String
  letter : Option Char
  takesValue : Bool
  deriving DecidableEq, Repr

/-- An option as given, with its value if it takes one. -/
structure Given where
  name : String
  value : Option String
  deriving DecidableEq, Repr

/-- What the words of a command come to: the options in the order given, and the operands. -/
structure Reading where
  options : List Given
  operands : List String
  deriving DecidableEq, Repr

/-- Why a command is not carried out: its words are wrong, or it is asked for something else. -/
inductive Stop
  | misuse
  | help
  | version
  deriving DecidableEq, Repr

namespace Reading

/-- The option was given. -/
def has (r : Reading) (name : String) : Bool := r.options.any (·.name == name)

/-- The value given last for an option. -/
def value? (r : Reading) (name : String) : Option String :=
  (r.options.reverse.find? (·.name == name)).bind (·.value)

/-- `r` with more options in front. -/
def withOptions (gs : List Given) (r : Reading) : Reading := { r with options := gs ++ r.options }

/-- `r` with one more operand in front. -/
def withOperand (w : String) (r : Reading) : Reading := { r with operands := w :: r.operands }

end Reading

/-- What one word is: an operand, options, or options of which the last one has its value in the next
word. -/
inductive Word
  | operand
  | options (gs : List Given)
  | awaiting (gs : List Given) (name : String)
  deriving DecidableEq, Repr

/-! ## Algorithm -/

/-- What a row of letters after one dash is, where `gs` are the options before it. -/
def letters (switches : List Switch) (gs : List Given) : List Char → Except Stop Word
  | [] => .ok (.options gs)
  | c :: cs =>
    match switches.find? (·.letter == some c) with
    | none => .error .misuse
    | some s =>
      if !s.takesValue then letters switches (gs ++ [⟨s.name, none⟩]) cs
      else if cs.isEmpty then .ok (.awaiting gs s.name)
      else .ok (.options (gs ++ [⟨s.name, some (String.ofList cs)⟩]))

/-- What a word after two dashes is. -/
def long (switches : List Switch) (cs : List Char) : Except Stop Word :=
  let name := String.ofList (cs.takeWhile (· != '='))
  match switches.find? (·.name == name), cs.dropWhile (· != '=') with
  | none, _ => .error .misuse
  | some s, [] => .ok (if s.takesValue then .awaiting [] s.name else .options [⟨s.name, none⟩])
  | some s, _ :: value =>
    if s.takesValue then .ok (.options [⟨s.name, some (String.ofList value)⟩]) else .error .misuse

/-- What a word is. -/
def word (switches : List Switch) (w : String) : Except Stop Word :=
  match w.toList with
  | '-' :: '-' :: cs => long switches cs
  | '-' :: c :: cs => letters switches [] (c :: cs)
  | _ => .ok .operand

/-- Reads words.  Options may stand among the operands only where `mixed` says so; else all words from
the first operand on are operands. -/
def read (switches : List Switch) (mixed : Bool) : List String → Except Stop Reading
  | [] => .ok ⟨[], []⟩
  | w :: ws =>
    if w = "--" then .ok ⟨[], ws⟩
    else
      match word switches w with
      | .error e => .error e
      | .ok .operand =>
        if mixed then (read switches mixed ws).map (.withOperand w) else .ok ⟨[], w :: ws⟩
      | .ok (.options gs) => (read switches mixed ws).map (.withOptions gs)
      | .ok (.awaiting gs name) =>
        match ws with
        | [] => .error .misuse
        | value :: ws => (read switches mixed ws).map (.withOptions (gs ++ [⟨name, some value⟩]))

/-- The options that ask for something else than the command, in the order given: the first counts. -/
def asked? (gs : List Given) : Option Stop :=
  gs.findSome? fun g =>
    if g.name = "help" then some .help
    else if g.name = "version" ∧ g.value = none then some .version
    else none

/-- Reads words; a demand for help or for the version takes precedence. -/
def readAsked (switches : List Switch) (mixed : Bool) (ws : List String) : Except Stop Reading := do
  let r ← read switches mixed ws
  match asked? r.options with
  | some stop => .error stop
  | none => .ok r

/-- Why the words of a name that is not known are wrong.  A name that looks like an option is read once
more as one, so that it may still be a demand for something else. -/
def unknownName (switches : List Switch) (ws : List String) : Stop :=
  match readAsked switches false ws with
  | .error stop => stop
  | .ok _ => .misuse

end CasStore.CommandLine
