import CasStore.Numeral

/-!
# Shortest decimals of binary fractions

A binary fraction `m · 2^q` stands for every real number nearer to it than to its neighbours.  Among
the decimals in that interval `shortest` takes one with the fewest digits, and of those the nearest.

`FloatText` fixes how such a decimal is laid out: `floatText.render x` has at least one digit on each
side of the point, or a power of ten of at least two digits.
-/

namespace CasStore.Decimal

/-- A positive binary fraction `mantissa · 2^exponent`. -/
structure Binary where
  mantissa : Nat
  exponent : Int
  deriving DecidableEq, Repr

/-- The least mantissa of a normal fraction of double precision. -/
def normalMantissa : Nat := 2 ^ 52

/-- The exponent of the fractions that have no leading one. -/
def leastExponent : Int := -1074

/-! ## Algorithm -/

/-- `x · 2^(exponent - 2)` as a quotient of natural numbers. -/
def Binary.quotient (b : Binary) (x : Nat) : Nat × Nat :=
  (x * 2 ^ (b.exponent - 2).toNat, 2 ^ (2 - b.exponent).toNat)

/-- The lower end of the interval of `b`, in quarters of its last place: the gap below a power of two is half
as wide. -/
def Binary.lower (b : Binary) : Nat :=
  if b.mantissa = normalMantissa ∧ leastExponent < b.exponent then 4 * b.mantissa - 1
  else 4 * b.mantissa - 2

/-- The upper end of the interval of `b`, in quarters of its last place. -/
def Binary.upper (b : Binary) : Nat := 4 * b.mantissa + 2

/-- `d · 10^k` lies in the interval of `b`; the ends belong to it when the mantissa is even. -/
def Binary.contains (b : Binary) (d : Nat) (k : Int) : Bool :=
  let (lowNum, den) := b.quotient b.lower
  let (highNum, _) := b.quotient b.upper
  let x := d * 10 ^ k.toNat * den
  let scale := 10 ^ (-k).toNat
  if b.mantissa % 2 = 0 then lowNum * scale ≤ x && x ≤ highNum * scale
  else lowNum * scale < x && x < highNum * scale

/-- The point of the grid `10^k` at or below `b`. -/
def Binary.floor (b : Binary) (k : Int) : Nat :=
  let (num, den) := b.quotient (4 * b.mantissa)
  num * 10 ^ (-k).toNat / (den * 10 ^ k.toNat)

/-- Twice the distance from `b` down to `d · 10^k`, against one step of the grid. -/
def Binary.aboveHalf (b : Binary) (d : Nat) (k : Int) : Ordering :=
  let (num, den) := b.quotient (4 * b.mantissa)
  compare (2 * num * 10 ^ (-k).toNat) ((2 * d + 1) * (den * 10 ^ k.toNat))

/-- The point of the grid `10^k` that lies in the interval of `b`, the nearer one of two. -/
def Binary.grid? (b : Binary) (k : Int) : Option Nat :=
  let d := b.floor k
  match b.contains d k, b.contains (d + 1) k with
  | true, true =>
    match b.aboveHalf d k with
    | .lt => some d
    | .gt => some (d + 1)
    | .eq => some (if d % 2 = 0 then d else d + 1)
  | true, false => some d
  | false, true => some (d + 1)
  | false, false => none

/-- The power of ten just above `b`. -/
def Binary.magnitude (b : Binary) : Int :=
  let (num, den) := b.quotient (4 * b.mantissa)
  if den ≤ num then (Numeral.natDigits (num / den)).length
  else
    1 - ((List.range 400).find? fun j => den ≤ num * 10 ^ j).getD 400

/-- The digits of the shortest decimal of `b`, and the power of ten its point stands at. -/
def Binary.shortest (b : Binary) : List Char × Int :=
  let e := b.magnitude
  let found := (List.range 17).findSome? fun (n : Nat) =>
    let k := e - (n + 1 : Nat)
    (b.grid? k).map fun d => (d, k)
  match found with
  | some (d, k) =>
    let ds := Numeral.natDigits d
    let kept := (ds.reverse.dropWhile (· == '0')).reverse
    (kept, k + ds.length)
  | none => (['0'], 1)

/-! ## Layout -/

/-- How a decimal is laid out: positionally while its leading digit stands for a power of ten from
`least` up to, but not including, `bound`. -/
structure FloatText where
  least : Int
  bound : Int
  exponentDigits : Nat
  nan : String
  infinity : String

/-- Powers of ten from `10^-4` to `10^15` are written positionally. -/
def floatText : FloatText := ⟨-4, 16, 2, "nan", "inf"⟩

/-- The layout of digits `ds` with the point at power `e`. -/
def FloatText.layout (t : FloatText) (ds : List Char) (e : Int) : List Char :=
  if t.least ≤ e - 1 ∧ e - 1 < t.bound then
    if e ≤ 0 then '0' :: '.' :: (List.replicate (-e).toNat '0' ++ ds)
    else
      let whole := ds.take e.toNat
      let rest := ds.drop e.toNat
      whole ++ List.replicate (e.toNat - whole.length) '0' ++ ('.' :: if rest.isEmpty then ['0'] else rest)
  else
    let power := Numeral.natDigits (e - 1).natAbs
    ds.take 1 ++ (if ds.length ≤ 1 then [] else '.' :: ds.drop 1) ++
      ('e' :: (if e - 1 < 0 then '-' else '+') ::
        (List.replicate (t.exponentDigits - power.length) '0' ++ power))

/-- The parts of a double: its sign, and its magnitude unless it is zero. -/
def split (x : Float) : Bool × Option Binary :=
  let bits := x.toBits.toNat
  let fraction := bits % 2 ^ 52
  let exponent : Nat := bits / 2 ^ 52 % 2 ^ 11
  (2 ^ 63 ≤ bits,
    if exponent = 0 then if fraction = 0 then none else some ⟨fraction, leastExponent⟩
    else some ⟨normalMantissa + fraction, (exponent : Int) - 1075⟩)

/-- The integer that a finite double equals. -/
def wholePart? (x : Float) : Option Int :=
  let (negative, magnitude) := split x
  let (num, den) : Nat × Nat := match magnitude with
    | none => (0, 1)
    | some b => (b.mantissa * 2 ^ b.exponent.toNat, 2 ^ (-b.exponent).toNat)
  if num % den = 0 then some (if negative then -((num / den : Nat) : Int) else (num / den : Nat))
  else none

/-- The integer part of a finite double. -/
def truncate (x : Float) : Int :=
  let (negative, magnitude) := split x
  let n : Nat := match magnitude with
    | none => 0
    | some b => b.mantissa * 2 ^ b.exponent.toNat / 2 ^ (-b.exponent).toNat
  if negative then -(n : Int) else n

/-- The shortest text that reads back as `x`. -/
def FloatText.render (t : FloatText) (x : Float) : String :=
  if x.isNaN then t.nan
  else if x.isInf then if x < 0 then "-" ++ t.infinity else t.infinity
  else
    let (negative, magnitude) := split x
    let body :=
      match magnitude with
      | none => ['0', '.', '0']
      | some b => let (ds, e) := b.shortest; t.layout ds e
    String.ofList (if negative then '-' :: body else body)

/-- The double nearest to `d · 10^e`.  Beyond the range of doubles the power of ten does not matter. -/
def nearest (negative : Bool) (d : Nat) (e : Int) : Float :=
  let size := e + (Numeral.natDigits d).length
  let x :=
    if d = 0 then 0.0
    else if 400 < size then 1.0 / 0.0
    else if size < -400 then 0.0
    else if e < 0 then Float.ofScientific d true e.natAbs
    else Float.ofScientific d false e.natAbs
  if negative then -x else x

end CasStore.Decimal
