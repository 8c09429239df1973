import CasStore.Basic

/-!
# Whole numbers of 53 bits

The server computes with numbers of 53 significant bits: a longer whole number is rounded to the nearest
such number, a half to the even one.  Beyond `2 ^ 1024` numbers are infinite.

    Rounded.ofInt i = finite i, for |i| below 2 ^ 53                 (ofInt_eq_finite)
    Rounded.word i = i, for |i| up to 2 ^ 53                         (word_eq_of_le)
    nothing else is rounded to a number below 2 ^ 53                 (eq_of_ofInt)
-/

namespace CasStore

/-- A whole number after rounding. -/
inductive Rounded
  | finite (i : Int)
  | infinite (negative : Bool)
  | undefined
  deriving DecidableEq, Repr

namespace Rounded

/-! ## Algorithm -/

/-- The number of significant bits. -/
def precision : Nat := 53

/-- `n` rounded to a multiple of `2 ^ k`, a half to an even multiple. -/
def roundTo (k n : Nat) : Nat :=
  let multiple := n / 2 ^ k
  let rest := n % 2 ^ k
  if 2 ^ k < 2 * rest ∨ (2 * rest = 2 ^ k ∧ multiple % 2 = 1) then (multiple + 1) * 2 ^ k
  else multiple * 2 ^ k

/-- The number of bits of `n` beyond the significant ones. -/
def excess (n : Nat) : Nat := n.log2 + 1 - precision

/-- Numbers of more bits than this are infinite. -/
def greatestLength : Nat := 1024

/-- `i`, rounded. -/
def ofInt (i : Int) : Rounded :=
  let n := roundTo (excess i.natAbs) i.natAbs
  if greatestLength ≤ n.log2 then .infinite (i < 0)
  else .finite (if i < 0 then -(n : Int) else n)

/-- The sum, rounded. -/
def add : Rounded → Rounded → Rounded
  | .finite i, .finite j => ofInt (i + j)
  | .infinite a, .infinite b => if a = b then .infinite a else .undefined
  | .undefined, _ => .undefined
  | _, .undefined => .undefined
  | .infinite a, .finite _ => .infinite a
  | .finite _, .infinite b => .infinite b

/-- The least integer of 64 bits. -/
def leastWord : Int := -2 ^ 63

/-- The integer of 64 bits that a number is written as; numbers out of range become the least one. -/
def toWord : Rounded → Int
  | .finite i => if leastWord ≤ i ∧ i < -leastWord then i else leastWord
  | _ => leastWord

/-- A whole number that has been rounded, written as an integer of 64 bits. -/
def word (i : Int) : Int := (ofInt i).toWord

/-! ## Lemmas -/

theorem roundTo_zero (n : Nat) : roundTo 0 n = n := by
  unfold roundTo
  simp [Nat.mod_one]

theorem excess_eq_zero {n : Nat} (h : n < 2 ^ precision) : excess n = 0 := by
  unfold excess
  by_cases hn : n = 0
  · subst hn; decide
  · have := (Nat.log2_lt hn).2 h
    omega

theorem log2_lt_precision {n : Nat} (h : n < 2 ^ precision) : n.log2 < precision := by
  by_cases hn : n = 0
  · subst hn; decide
  · exact (Nat.log2_lt hn).2 h

theorem ofInt_eq_finite {i : Int} (h : i.natAbs < 2 ^ precision) : ofInt i = .finite i := by
  unfold ofInt
  rw [excess_eq_zero h, roundTo_zero]
  have hlt : ¬ greatestLength ≤ i.natAbs.log2 := by
    have := log2_lt_precision h
    have : precision ≤ greatestLength := by decide
    omega
  simp only [if_neg hlt]
  congr 1
  split <;> omega

/-- Rounding leaves a number of more bits than the significant ones that long. -/
theorem two_pow_le_roundTo {n : Nat} (h : 2 ^ precision ≤ n) :
    2 ^ precision ≤ roundTo (excess n) n := by
  have hn : n ≠ 0 := by
    rintro rfl
    exact absurd h (by decide)
  have hlog : precision ≤ n.log2 := (Nat.le_log2 hn).2 h
  have hexcess : n.log2 = (precision - 1) + excess n := by
    have : (1 : Nat) ≤ precision := by decide
    unfold excess
    omega
  have hmultiple : 2 ^ (precision - 1) ≤ n / 2 ^ excess n := by
    rw [Nat.le_div_iff_mul_le (Nat.two_pow_pos _), ← Nat.pow_add, ← hexcess]
    exact Nat.log2_self_le hn
  have hround : n / 2 ^ excess n * 2 ^ excess n ≤ roundTo (excess n) n := by
    unfold roundTo
    simp only
    split
    · exact Nat.mul_le_mul_right _ (Nat.le_succ _)
    · exact Nat.le_refl _
  calc 2 ^ precision ≤ 2 ^ n.log2 := Nat.pow_le_pow_right (by decide) hlog
    _ = 2 ^ (precision - 1) * 2 ^ excess n := by rw [← Nat.pow_add, ← hexcess]
    _ ≤ n / 2 ^ excess n * 2 ^ excess n := Nat.mul_le_mul_right _ hmultiple
    _ ≤ roundTo (excess n) n := hround

/-- What is rounded to a short number is that number. -/
theorem eq_of_ofInt {i j : Int} (h : ofInt i = .finite j) (hj : j.natAbs < 2 ^ precision) : i = j := by
  by_cases hi : i.natAbs < 2 ^ precision
  · rw [ofInt_eq_finite hi] at h
    exact Rounded.finite.inj h
  · have hlong := two_pow_le_roundTo (Nat.not_lt.1 hi)
    unfold ofInt at h
    simp only at h
    split at h
    · cases h
    · have := Rounded.finite.inj h
      split at this <;> omega

/-- The first number of one bit more is not rounded either. -/
theorem ofInt_eq_finite_of_le {i : Int} (h : i.natAbs ≤ 2 ^ precision) : ofInt i = .finite i := by
  rcases Nat.lt_or_eq_of_le h with hlt | heq
  · exact ofInt_eq_finite hlt
  · rcases Int.natAbs_eq i with hi | hi
    · rw [hi, heq]; decide +kernel
    · rw [hi, heq]; decide +kernel

theorem toWord_finite {i : Int} (hleast : leastWord ≤ i) (hgreatest : i < -leastWord) :
    (finite i).toWord = i := if_pos ⟨hleast, hgreatest⟩

theorem toWord_finite_of_le {i : Int} (h : i.natAbs ≤ 2 ^ precision) : (finite i).toWord = i := by
  have hp : (2 : Nat) ^ precision < 2 ^ 63 := by decide
  have hl : leastWord = -((2 ^ 63 : Nat) : Int) := by decide
  exact toWord_finite (by omega) (by omega)

theorem word_eq_of_le {i : Int} (h : i.natAbs ≤ 2 ^ precision) : word i = i := by
  rw [word, ofInt_eq_finite_of_le h, toWord_finite_of_le h]

end Rounded

end CasStore
