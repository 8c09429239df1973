import CasStore.Numeral

/-!
# Counter texts

A document is a counter when its content is blanks, at most one sign, ASCII digits and blanks.  Its
value is that of the digits, with the sign.

    read (Numeral.text i) = ok i, for an i of at most `maxDigits` digits     (Proofs)
-/

namespace CasStore.Counter

open Text

/-- Why a content is not read as a counter. -/
inductive Problem
  /-- It is no counter text. -/
  | notCounter
  /-- It is one, but of too many digits. -/
  | tooLong (digits : Nat)
  deriving DecidableEq, Repr

/-! ## Algorithm -/

/-- The sign and the digits of a counter text: whether a minus stands before them, and the digits. -/
def parts? (cs : List Char) : Option (Bool × List Char) :=
  let (negative, rest) := Numeral.splitSign (cs.dropWhile isAsciiBlank)
  let ds := rest.takeWhile Char.isDigit
  if ds.isEmpty then none
  else if (rest.dropWhile Char.isDigit).all isAsciiBlank then some (negative, ds)
  else none

/-- `n`, or its negative. -/
def signed (negative : Bool) (n : Nat) : Int := if negative then -n else n

/-- The value of a counter text. -/
def read (content : String) : Except Problem Int :=
  match parts? content.toList with
  | none => .error .notCounter
  | some (negative, ds) =>
    if ds.length ≤ Numeral.maxDigits then .ok (signed negative (Numeral.value ds))
    else .error (.tooLong ds.length)

/-! ## Lemmas -/

theorem read_eq_notCounter_iff {content : String} :
    read content = .error .notCounter ↔ parts? content.toList = none := by
  unfold read
  split
  · next h => simp [h]
  · next h => split <;> simp [h]

end CasStore.Counter
