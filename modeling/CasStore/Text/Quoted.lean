import CasStore.Basic
import CasStore.Text.Printable

/-!
# Quoted texts

A quoted text shows a string on one line, whatever it holds.  It stands in single quotes, or in double
quotes when it holds a single quote and no double one; the quote in use and the backslash take a
backslash, line feed, carriage return and tab have names, and every other character that is not
printable is written by its number.

    the quote in use never stands alone between the quotes           (quotedChar_ne_singleton)
-/

namespace CasStore.Text

/-! ## Algorithm -/

/-- The `width` low hexadecimal digits of `n`. -/
def hexDigits (width n : Nat) : List Char :=
  (List.range width).reverse.map fun i => Nat.digitChar (n / 16 ^ i % 16)

/-- `c` by its number, in the shortest of the three fixed widths. -/
def numberedChar (c : Char) : List Char :=
  if c.toNat < 0x100 then '\\' :: 'x' :: hexDigits 2 c.toNat
  else if c.toNat < 0x10000 then '\\' :: 'u' :: hexDigits 4 c.toNat
  else '\\' :: 'U' :: hexDigits 8 c.toNat

/-- One character between quotes `q`. -/
def quotedChar (q c : Char) : List Char :=
  if c == q || c == '\\' then ['\\', c]
  else if c == '\n' then ['\\', 'n']
  else if c == '\r' then ['\\', 'r']
  else if c == '\t' then ['\\', 't']
  else if isPrintable c then [c]
  else numberedChar c

/-- The quote a text is written in. -/
def quoteOf (cs : List Char) : Char :=
  if cs.contains '\'' && !cs.contains '"' then '"' else '\''

/-- `s` in quotes. -/
def quoted (s : String) : String :=
  let q := quoteOf s.toList
  String.ofList (q :: s.toList.flatMap (quotedChar q) ++ [q])

/-! ## Lemmas -/

/-- The quote in use never stands alone between the quotes. -/
theorem quotedChar_ne_singleton (q c : Char) : quotedChar q c ≠ [q] := by
  unfold quotedChar
  split
  · simp
  · next h =>
    split
    · simp
    split
    · simp
    split
    · simp
    split
    · intro h'
      simp at h h'
      exact h.1 h'
    · unfold numberedChar
      split
      · simp
      split <;> simp

example : quoted "it's" = "\"it's\"" := by decide +kernel

end CasStore.Text
