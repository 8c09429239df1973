import CasStore.Text.Blank
import CasStore.Text.Digit
import CasStore.Text.Quoted

/-!
# Decimal numerals

The decimal text of an integer, and the reading of one.  Neither direction goes beyond `maxDigits`
digits; what is longer is refused, with its length.

    value (natDigits n) = n                                          (value_natDigits)
    natDigits n holds digits only, and at least one                  (natDigits_isDigit, natDigits_ne_nil)
-/

namespace CasStore.Numeral

open CasStore.Text

/-- The most digits a numeral may have, when written and when read. -/
def maxDigits : Nat := 4300

/-- Why a numeral is refused. -/
inductive Problem
  /-- The text is no numeral. -/
  | malformed (source : String)
  /-- The text has more than `maxDigits` digits. -/
  | tooLong (digits : Nat)
  /-- The number has more than `maxDigits` digits. -/
  | tooLarge
  deriving DecidableEq, Repr

/-- The wording of a refusal; of a malformed source only the first 200 characters are shown. -/
def Problem.message : Problem → String
  | .malformed source =>
    "invalid literal for int() with base 10: " ++ String.ofList ((quoted source).toList.take 200)
  | .tooLong digits =>
    s!"Exceeds the limit ({maxDigits} digits) for integer string conversion: value has {digits} digits; use sys.set_int_max_str_digits() to increase the limit"
  | .tooLarge =>
    s!"Exceeds the limit ({maxDigits} digits) for integer string conversion; use sys.set_int_max_str_digits() to increase the limit"

/-! ## Writing -/

/-- The decimal digits of `n`, most significant first. -/
def natDigits (n : Nat) : List Char :=
  if n < 10 then [Nat.digitChar n] else natDigits (n / 10) ++ [Nat.digitChar (n % 10)]
termination_by n

/-- The canonical digits of `i`: no leading zero, a minus sign before a negative number. -/
def digits (i : Int) : List Char :=
  if i < 0 then '-' :: natDigits i.natAbs else natDigits i.natAbs

/-- The canonical text of `i`. -/
def text (i : Int) : String := String.ofList (digits i)

/-- The canonical text of `i`, unless it is too long to be written. -/
def write (i : Int) : Except Problem String :=
  let t := digits i
  if (natDigits i.natAbs).length ≤ maxDigits then .ok (String.ofList t) else .error .tooLarge

/-! ## Reading -/

/-- The number that a row of ASCII digits stands for. -/
def value (cs : List Char) : Nat :=
  cs.foldl (fun n c => 10 * n + (c.toNat - 48)) 0

/-- Reads digits of any script, single underscores allowed between them: the values of the digits in
front of `cs`, and what follows.  Nothing where an underscore does not stand between two digits. -/
def digitRun? : Bool → List Char → Option (List Nat × List Char)
  | afterDigit, [] => if afterDigit then some ([], []) else none
  | afterDigit, c :: cs =>
    match decimalDigit? c with
    | some d => (digitRun? true cs).map fun (ds, rest) => (d :: ds, rest)
    | none =>
      if afterDigit then
        if c == '_' then digitRun? false cs else some ([], c :: cs)
      else none

/-- Splits a sign off: whether it is a minus, and the rest. -/
def splitSign : List Char → Bool × List Char
  | '-' :: cs => (true, cs)
  | '+' :: cs => (false, cs)
  | cs => (false, cs)

/-- The number with decimal digits `ds`. -/
def ofDigitValues (ds : List Nat) : Nat := ds.foldl (fun n d => 10 * n + d) 0

/-- Reads a whole text as a number: blanks, a sign, digits, blanks. -/
def read (s : String) : Except Problem Int :=
  let (negative, cs) := splitSign (s.toList.dropWhile isNumberBlank)
  match digitRun? false cs with
  | none => .error (.malformed s)
  | some (ds, rest) =>
    if maxDigits < ds.length then .error (.tooLong ds.length)
    else if rest.all isNumberBlank then
      .ok (if negative then -(ofDigitValues ds : Int) else ofDigitValues ds)
    else .error (.malformed s)

/-! ## Lemmas -/

theorem natDigits_ne_nil (n : Nat) : natDigits n ≠ [] := by
  unfold natDigits
  split <;> simp

theorem digitChar_toNat {d : Nat} (h : d < 10) : (Nat.digitChar d).toNat = 48 + d := by
  have : ∀ d : Fin 10, (Nat.digitChar d).toNat = 48 + d := by decide
  exact this ⟨d, h⟩

theorem digitChar_isDigit {d : Nat} (h : d < 10) : (Nat.digitChar d).isDigit = true := by
  have : ∀ d : Fin 10, (Nat.digitChar d).isDigit = true := by decide
  exact this ⟨d, h⟩

theorem natDigits_isDigit (n : Nat) : ∀ c ∈ natDigits n, c.isDigit = true := by
  induction n using Nat.strongRecOn with
  | ind n ih =>
    unfold natDigits
    split
    · next h => simpa using digitChar_isDigit h
    · next h =>
      intro c hc
      rcases List.mem_append.1 hc with hc | hc
      · exact ih (n / 10) (by omega) c hc
      · rw [List.mem_singleton.1 hc]
        exact digitChar_isDigit (by omega)

theorem value_append_singleton (cs : List Char) (c : Char) :
    value (cs ++ [c]) = 10 * value cs + (c.toNat - 48) := by
  simp [value, List.foldl_append]

theorem value_natDigits (n : Nat) : value (natDigits n) = n := by
  induction n using Nat.strongRecOn with
  | ind n ih =>
    unfold natDigits
    split
    · next h => simp [value, digitChar_toNat h]
    · next h =>
      rw [value_append_singleton, ih (n / 10) (by omega), digitChar_toNat (by omega)]
      omega

end CasStore.Numeral
