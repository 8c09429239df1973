/-!
# Lines

A line ends at a line feed, at a carriage return, or at both in that order; each is written as a line
feed.  `splitLines` gives the lines that have ended, and what stands after the last of them.
-/

namespace CasStore.Text

/-! ## Algorithm -/

/-- `cs` with every line end written as a line feed. -/
def unifyLineEnds : List Char → List Char
  | '\r' :: '\n' :: rest => '\n' :: unifyLineEnds rest
  | '\r' :: rest => '\n' :: unifyLineEnds rest
  | c :: rest => c :: unifyLineEnds rest
  | [] => []

/-- Splits after each line feed: the lines, and what stands after the last line feed. -/
def splitLines : List Char → List (List Char) × List Char
  | [] => ([], [])
  | c :: cs =>
    match splitLines cs with
    | (lines, rest) =>
      if c = '\n' then ([c] :: lines, rest)
      else
        match lines with
        | [] => ([], c :: rest)
        | line :: lines => ((c :: line) :: lines, rest)

/-- All lines, the last of which may not have ended. -/
def allLines (cs : List Char) : List (List Char) :=
  match splitLines cs with
  | (lines, []) => lines
  | (lines, rest) => lines ++ [rest]

/-- Everything that ends a line in some script or on some device, besides a carriage return and a line
feed together. -/
def isLineBreak (c : Char) : Bool :=
  let n := c.toNat
  (0xa ≤ n && n ≤ 0xd) || (0x1c ≤ n && n ≤ 0x1e) || n == 0x85 || n == 0x2028 || n == 0x2029

/-- The lines of a text, without their breaks; nothing stands after a break at the end. -/
def brokenLines (cs : List Char) : List (List Char) :=
  (allLines ((unifyLineEnds cs).map fun c => if isLineBreak c then '\n' else c)).map fun line =>
    line.filter (· != '\n')

end CasStore.Text
