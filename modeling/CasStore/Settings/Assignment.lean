import CasStore.Table
import CasStore.Text.Blank
import CasStore.Text.Lines

/-!
# Assignment files

A file of assignments gives values to names, one `name=value` a line.  A value stands in single or
double quotes, where a backslash escapes, or bare up to the end of the line or a comment.  A name
without a value is kept, and takes away what the name had before.  A line that cannot be read is
skipped.

    in a value, `$\x7bname\x7d` stands for the value of that name, and `$\x7bname:-text\x7d` for `text` without one
-/

namespace CasStore.Settings

open Text

/-- A name and its value, if it has one. -/
abbrev Assignment := String × Option String

/-! ## Pieces of a line -/

/-- A line end. -/
def isLineEnd (c : Char) : Bool := c == '\n' || c == '\r'

/-- A blank within a line. -/
def isLineBlank (c : Char) : Bool := isBlank c && !isLineEnd c

/-- `cs` without the blanks of this line in front. -/
def skipLineBlanks (cs : List Char) : List Char := cs.dropWhile isLineBlank

/-- `cs` without the word `export` and the blanks after it. -/
def skipExport (cs : List Char) : List Char :=
  let word := "export".toList
  if word.isPrefixOf cs && ((cs.drop word.length).head?.any isLineBlank) then
    skipLineBlanks (cs.drop word.length)
  else cs

/-- Splits quoted text at its closing quote, which no backslash escapes. -/
def closingQuote? (q : Char) : List Char → Option (List Char × List Char)
  | [] => none
  | '\\' :: c :: rest =>
    (closingQuote? q rest).map fun (value, rest) => ('\\' :: c :: value, rest)
  | c :: rest =>
    if c = q then some ([], rest)
    else (closingQuote? q rest).map fun (value, rest) => (c :: value, rest)

/-- What an escaped character stands for in quotes `q`. -/
def unescaped? (q c : Char) : Option Char :=
  if c = '\\' ∨ c = '\'' then some c
  else if q = '\'' then none
  else
    match c with
    | '"' => some '"'
    | 'a' => some '\x07'
    | 'b' => some '\x08'
    | 'f' => some '\x0c'
    | 'n' => some '\n'
    | 'r' => some '\r'
    | 't' => some '\t'
    | 'v' => some '\x0b'
    | _ => none

/-- The text that stands in quotes `q`, its escapes replaced. -/
def unescape (q : Char) : List Char → List Char
  | [] => []
  | '\\' :: c :: rest =>
    match unescaped? q c with
    | some d => d :: unescape q rest
    | none => '\\' :: unescape q (c :: rest)
  | c :: rest => c :: unescape q rest

/-- A bare value up to the comment, which follows a blank. -/
def beforeComment : List Char → List Char
  | [] => []
  | c :: cs =>
    if isBlank c && (cs.dropWhile isBlank).head? == some '#' then [] else c :: beforeComment cs

/-- `cs` without the blanks at its end. -/
def trimEnd (cs : List Char) : List Char := (cs.reverse.dropWhile isBlank).reverse

/-! ## Lines -/

/-- A name, perhaps in single quotes, and what follows. -/
def name? : List Char → Option (List Char × List Char)
  | '\'' :: rest =>
    let name := rest.takeWhile (· != '\'')
    match rest.dropWhile (· != '\'') with
    | _ :: after => if name.isEmpty then none else some (name, after)
    | [] => none
  | cs =>
    let inName (c : Char) : Bool := c != '=' && c != '#' && !isBlank c
    if (cs.takeWhile inName).isEmpty then none else some (cs.takeWhile inName, cs.dropWhile inName)

/-- The value after an equals sign, and what follows. -/
def value? (cs : List Char) : Option (List Char × List Char) :=
  match skipLineBlanks cs with
  | '\'' :: rest => (closingQuote? '\'' rest).map fun (v, rest) => (unescape '\'' v, rest)
  | '"' :: rest => (closingQuote? '"' rest).map fun (v, rest) => (unescape '"' v, rest)
  | _ =>
    let line := cs.takeWhile fun c => !isLineEnd c
    some (trimEnd (skipLineBlanks (beforeComment line)), cs.dropWhile fun c => !isLineEnd c)

/-- `cs` without what is left of the line, and its end. -/
def skipLine (cs : List Char) : List Char := (cs.dropWhile fun c => !isLineEnd c).drop 1

/-- `a`, if the line ends after it, with blanks and a comment at most; and what follows the line. -/
def endLine (a : Option Assignment) (cs : List Char) : Option Assignment × List Char :=
  match skipLineBlanks cs with
  | [] => (a, [])
  | '#' :: rest => (a, skipLine rest)
  | c :: rest => if isLineEnd c then (a, rest) else (none, skipLine rest)

/-- The assignment at the start of `cs`, if there is one, and what follows its line. -/
def readLine (cs : List Char) : Option Assignment × List Char :=
  let cs := skipExport cs
  if cs.head? = some '#' then endLine none cs
  else
    match name? cs with
    | none => (none, skipLine cs)
    | some (name, rest) =>
      match skipLineBlanks rest with
      | '=' :: rest =>
        match value? rest with
        | none => (none, skipLine rest)
        | some (value, rest) => endLine (some (String.ofList name, some (String.ofList value))) rest
      | rest => endLine (some (String.ofList name, none)) rest

/-- Reads lines.  The first argument bounds their number. -/
def readLines : Nat → List Char → List Assignment
  | 0, _ => []
  | n + 1, cs =>
    match cs.dropWhile isBlank with
    | [] => []
    | cs =>
      match readLine cs with
      | (some a, rest) => a :: readLines n rest
      | (none, rest) => readLines n rest

/-! ## References -/

/-- A reference after its opening brace: the name, the text for want of a value, and what follows. -/
def reference? (cs : List Char) : Option (String × String × List Char) :=
  let inName (c : Char) : Bool := c != '\x7d' && c != ':'
  let name := String.ofList (cs.takeWhile inName)
  match cs.dropWhile inName with
  | '\x7d' :: rest => some (name, "", rest)
  | ':' :: '-' :: rest =>
    match rest.dropWhile (· != '\x7d') with
    | _ :: after => some (name, String.ofList (rest.takeWhile (· != '\x7d')), after)
    | [] => none
  | _ => none

/-- `cs` with its references replaced.  The first argument bounds their number. -/
def resolve (known : List Assignment) : Nat → List Char → List Char
  | 0, cs => cs
  | _ + 1, [] => []
  | n + 1, '$' :: '\x7b' :: rest =>
    match reference? rest with
    | some (name, fallback, rest) =>
      let value := match known.lookup name with
        | some v => v.getD ""
        | none => fallback
      value.toList ++ resolve known n rest
    | none => '$' :: '\x7b' :: resolve known n rest
  | n + 1, c :: rest => c :: resolve known n rest

/-- The assignments with their references resolved from front to back: by what stands in front, and
else by the environment. -/
def resolveAll (environment : List Assignment) : List Assignment → List Assignment → List Assignment
  | _, [] => []
  | before, (name, value) :: rest =>
    let value := value.map fun v =>
      String.ofList (resolve (before ++ environment) (v.length + 1) v.toList)
    (name, value) :: resolveAll environment ((name, value) :: before) rest

/-- `cs` without the byte order mark that it may begin with. -/
def withoutMark : List Char → List Char
  | '\ufeff' :: cs => cs
  | cs => cs

/-- The assignments of a file.  Of several to one name the last counts, in the place of the first. -/
def readAssignments (environment : List (String × String)) (text : String) : List Assignment :=
  let cs := unifyLineEnds (withoutMark text.toList)
  let known := environment.map fun (name, value) => (name, some value)
  (Table.ofList (resolveAll known [] (readLines (cs.length + 1) cs))).entries

end CasStore.Settings
