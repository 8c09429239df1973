/-!
# Blank characters

Three classes of blanks are told apart: the six ASCII blanks of a counter text, the blanks that
separate words of any script, and the blanks that may surround a written number.
-/

namespace CasStore.Text

/-! ## Algorithm -/

/-- Space, tab, line feed, vertical tab, form feed or carriage return. -/
def isAsciiBlank (c : Char) : Bool :=
  c == ' ' || (9 ≤ c.toNat && c.toNat ≤ 13)

/-- The ranges of the blanks of all scripts, ends included. -/
def blankRanges : List (Nat × Nat) := [
  (0x9, 0xd), (0x1c, 0x20), (0x85, 0x85), (0xa0, 0xa0), (0x1680, 0x1680), (0x2000, 0x200a),
  (0x2028, 0x2029), (0x202f, 0x202f), (0x205f, 0x205f), (0x3000, 0x3000)]

/-- A blank of any script, the four separators U+001C to U+001F among them. -/
def isBlank (c : Char) : Bool :=
  blankRanges.any fun r => r.1 ≤ c.toNat && c.toNat ≤ r.2

/-- What may stand around a number: an ASCII blank, or a blank outside ASCII. -/
def isNumberBlank (c : Char) : Bool :=
  isAsciiBlank c || (128 ≤ c.toNat && isBlank c)

/-- `cs` without the characters of class `p` at both ends. -/
def trimWith (p : Char → Bool) (cs : List Char) : List Char :=
  ((cs.dropWhile p).reverse.dropWhile p).reverse

/-- `s` without the blanks at both ends. -/
def trim (s : String) : String :=
  String.ofList (trimWith isBlank s.toList)

end CasStore.Text
