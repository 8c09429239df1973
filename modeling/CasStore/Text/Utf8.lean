import CasStore.Numeral

/-!
# Reading UTF-8

A text is read from its octets.  Where they are not UTF-8, reading stops and says which octets are at
fault: a first octet that none can be, a sequence that breaks off before an octet that does not continue
it, or a sequence that the end cuts short.  What was read before them is kept.
-/

namespace CasStore.Text.Utf8

/-- What is wrong with octets. -/
inductive Reason
  | start
  | continuation
  | cutShort
  deriving DecidableEq, Repr

/-- The octets at fault: how many of them, the first of them, and the position of that. -/
structure Stop where
  reason : Reason
  position : Nat
  first : UInt8
  count : Nat
  deriving DecidableEq, Repr

/-- The wording of a reason. -/
def Reason.text : Reason → String
  | .start => "invalid start byte"
  | .continuation => "invalid continuation byte"
  | .cutShort => "unexpected end of data"

/-- The wording of a stop. -/
def Stop.message (e : Stop) : String :=
  let place :=
    if e.count = 1 then
      s!"byte 0x{String.ofList (hexDigits 2 e.first.toNat)} in position {Numeral.text e.position}"
    else
      s!"bytes in position {Numeral.text e.position}-{Numeral.text (e.position + e.count - 1 : Nat)}"
  s!"'utf-8' codec can't decode {place}: {e.reason.text}"

/-- Whether only the end of `octets` makes the octets at fault wrong: they are cut short, or they are the
first two of a surrogate, which no third one can make right. -/
def Stop.atEnd (e : Stop) (octets : List UInt8) : Bool :=
  e.reason == .cutShort ||
    match octets.drop e.position with
    | [b, c] => b == 0xed && 0xa0 ≤ c && c ≤ 0xbf
    | _ => false

/-! ## Sequences -/

/-- The number of octets that follow a first octet, the range that the next of them lies in, and the
bits that the first one gives. -/
def lead? (b : UInt8) : Option (Nat × UInt8 × UInt8 × Nat) :=
  if b < 0x80 then some (0, 0x80, 0xbf, b.toNat)
  else if b < 0xc2 then none
  else if b < 0xe0 then some (1, 0x80, 0xbf, b.toNat - 0xc0)
  else if b < 0xf0 then
    let low := if b = 0xe0 then 0xa0 else 0x80
    let high := if b = 0xed then 0x9f else 0xbf
    some (2, low, high, b.toNat - 0xe0)
  else if b < 0xf5 then
    let low := if b = 0xf0 then 0x90 else 0x80
    let high := if b = 0xf4 then 0x8f else 0xbf
    some (3, low, high, b.toNat - 0xf0)
  else none

/-- What reading the octets after a first one comes to. -/
inductive Tail
  | whole (code : Nat) (rest : List UInt8)
  | broken (read : Nat)
  | cutShort (read : Nat)

/-- Reads `n` more octets, of which `read` have been read; the next one lies between `low` and `high`,
those after it anywhere among the continuation octets. -/
def tail (n : Nat) (low high : UInt8) (code read : Nat) (bs : List UInt8) : Tail :=
  match n, bs with
  | 0, bs => .whole code bs
  | _ + 1, [] => .cutShort read
  | n + 1, b :: bs =>
    if low ≤ b ∧ b ≤ high then tail n 0x80 0xbf (64 * code + (b.toNat - 0x80)) (read + 1) bs
    else .broken read

theorem length_tail {n : Nat} {low high : UInt8} {code read : Nat} {bs : List UInt8} {c : Nat}
    {rest : List UInt8} (h : tail n low high code read bs = .whole c rest) :
    rest.length ≤ bs.length := by
  induction n generalizing low high code read bs with
  | zero => simp only [tail] at h; cases h; exact Nat.le_refl _
  | succ n ih =>
    cases bs with
    | nil => simp [tail] at h
    | cons b bs =>
      simp only [tail] at h
      split at h
      · exact Nat.le_succ_of_le (ih h)
      · cases h

/-! ## Algorithm -/

/-- Reads octets from position `position` on: the characters up to the end or up to where reading
stops, and why it stops. -/
def decodeFrom (position : Nat) (bs : List UInt8) : List Char × Option Stop :=
  match bs with
  | [] => ([], none)
  | b :: bs =>
    match lead? b with
    | none => ([], some ⟨.start, position, b, 1⟩)
    | some (n, low, high, code) =>
      match _h : tail n low high code 1 bs with
      | .cutShort read => ([], some ⟨.cutShort, position, b, read⟩)
      | .broken read => ([], some ⟨.continuation, position, b, read⟩)
      | .whole code rest =>
        let (cs, stop) := decodeFrom (position + n + 1) rest
        (Char.ofNat code :: cs, stop)
termination_by bs.length
decreasing_by
  have := length_tail _h
  simp only [List.length_cons]
  omega

/-- The text that octets hold. -/
def decode (bs : List UInt8) : Except Stop String :=
  match decodeFrom 0 bs with
  | (cs, none) => .ok (String.ofList cs)
  | (_, some e) => .error e

end CasStore.Text.Utf8
