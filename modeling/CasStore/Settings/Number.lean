import CasStore.Decimal.Shortest
import CasStore.Text.Blank

/-!
# Numbers given as text

Configuration gives numbers as text.  A whole number is at best in its canonical form; a text that is
not is first tidied: a plus sign, zeros in front, a fraction of zeros and single underscores go.  A
fractional number may besides have a fraction and a power of ten.  Digits are ASCII digits, and blanks
may surround a number that has no underscores.
-/

namespace CasStore.Settings

open Text

/-- Why a text is no whole number. -/
inductive NumberProblem
  | malformed
  | tooLong
  deriving DecidableEq, Repr

/-! ## Algorithm -/

/-- The whole number that `cs` is the canonical form of: a minus sign, or none, and digits that do not
begin with a zero but for the number zero.  Whatever begins like a number that is too long is too
long. -/
def canonical (cs : List Char) : Except NumberProblem Int :=
  let negative := cs.head? == some '-'
  let unsigned := if negative then cs.drop 1 else cs
  let digits := unsigned.takeWhile Char.isDigit
  let zero := digits.head? == some '0'
  if !zero && Numeral.maxDigits < cs.length - (unsigned.length - digits.length) then .error .tooLong
  else if digits.isEmpty || digits.length < unsigned.length || (zero && 1 < digits.length) then
    .error .malformed
  else .ok (if negative then -(Numeral.value digits : Int) else Numeral.value digits)

/-- `cs` without a plus sign in front, which no minus sign may follow. -/
def withoutPlus? : List Char → Option (List Char)
  | '+' :: '-' :: _ => none
  | '+' :: cs => some cs
  | cs => some cs

/-- What follows zeros and underscores, the last of which is `before`.  A point keeps that one, and so
does the end. -/
def afterZeros? (before : Char) : List Char → Option (List Char)
  | [] => some [before]
  | c :: cs =>
    if c = '0' ∨ c = '_' then afterZeros? c cs
    else if c = '.' then some (before :: c :: cs)
    else if c.isDigit ∨ c = '-' then some (c :: cs)
    else none

/-- `cs` without the zeros in front of a number or of its minus sign. -/
def withoutZeros? : List Char → Option (List Char)
  | [] => none
  | c :: cs =>
    if c = '0' then afterZeros? c cs
    else if c.isDigit ∨ c = '-' then some (c :: cs)
    else none

/-- `cs` without a point and the zeros after it, at least one, at its end. -/
def withoutFraction (cs : List Char) : List Char :=
  match cs.dropWhile (· != '.') with
  | _ :: fraction =>
    if !fraction.isEmpty && fraction.all (· == '0') then cs.takeWhile (· != '.') else cs
  | [] => cs

/-- `cs` without its underscores, if each of them stands between two other characters. -/
def withoutUnderscores? (cs : List Char) : Option (List Char) :=
  if cs.head? = some '_' ∨ cs.getLast? = some '_' then none
  else if (cs.zip (cs.drop 1)).any fun (c, d) => c == '_' && d == '_' then none
  else some (cs.filter (· != '_'))

/-- The number that `cs` would give in canonical form. -/
def tidied? (cs : List Char) : Option (List Char) := do
  let cs ← withoutPlus? cs
  let cs ← withoutZeros? cs
  withoutUnderscores? (withoutFraction cs)

/-- The whole number that a text gives. -/
def wholeNumber (s : String) : Except NumberProblem Int :=
  let cs := trimWith isNumberBlank s.toList
  match canonical cs with
  | .error .malformed =>
    match tidied? cs with
    | some cs => canonical cs
    | none => .error .malformed
  | read => read

/-- The power of ten at the end of a number: none is the power zero. -/
def exponent? : List Char → Option Int
  | [] => some 0
  | e :: rest =>
    if e = 'e' ∨ e = 'E' then
      let (negative, ds) := Numeral.splitSign rest
      if ds.isEmpty || !ds.all Char.isDigit then none
      else some (if negative then -(Numeral.value ds : Int) else Numeral.value ds)
    else none

/-- The magnitude of a number without its sign. -/
def magnitude? (negative : Bool) (cs : List Char) : Option Float :=
  let word := cs.map Char.toLower
  let sign (x : Float) : Float := if negative then -x else x
  if word = "inf".toList ∨ word = "infinity".toList then some (sign (1.0 / 0.0))
  else if word = "nan".toList then some (0.0 / 0.0)
  else
    let whole := cs.takeWhile Char.isDigit
    let rest := cs.dropWhile Char.isDigit
    let (fraction, rest) := match rest with
      | '.' :: rest => (rest.takeWhile Char.isDigit, rest.dropWhile Char.isDigit)
      | rest => ([], rest)
    if whole.isEmpty && fraction.isEmpty then none
    else (exponent? rest).map fun e =>
      Decimal.nearest negative (Numeral.value (whole ++ fraction)) (e - fraction.length)

/-- The number with its sign that `cs` gives. -/
def signed? (cs : List Char) : Option Float :=
  let (negative, cs) := Numeral.splitSign cs
  magnitude? negative cs

/-- The number that a text gives: between blanks, or else without underscores. -/
def number? (s : String) : Option Float :=
  match signed? (trimWith isNumberBlank s.toList) with
  | some x => some x
  | none => (withoutUnderscores? s.toList).bind signed?

end CasStore.Settings
