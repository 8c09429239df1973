import CasStore.Numeral

/-!
# Reading back what was written

A number that is not too long to be written is read back as itself, and a number of few digits is not
too long.

    write i = ok (text i), for |i| below 10 ^ 20                     (write_eq_text)
    read (text i) = ok i, for an i of at most `maxDigits` digits     (read_text)
-/

namespace CasStore

open Text

/-! ## Lemmas -/

theorem Text.isDigit_iff {c : Char} : c.isDigit = true ↔ 48 ≤ c.toNat ∧ c.toNat ≤ 57 := by
  unfold Char.isDigit
  rw [Bool.and_eq_true, decide_eq_true_eq, decide_eq_true_eq]
  exact Iff.rfl

theorem Text.decimalDigit?_of_isDigit {c : Char} (h : c.isDigit = true) :
    decimalDigit? c = some (c.toNat - 48) := by
  obtain ⟨hlow, hhigh⟩ := isDigit_iff.1 h
  have hzero : (48 ≤ c.toNat && c.toNat < 48 + 10) = true := by
    rw [Bool.and_eq_true, decide_eq_true_eq, decide_eq_true_eq]
    omega
  have hhead : zeroDigits = 48 :: zeroDigits.tail := rfl
  unfold decimalDigit?
  rw [hhead]
  simp only [List.find?_cons, hzero, Option.map_some]

theorem Text.isNumberBlank_of_isDigit {c : Char} (h : c.isDigit = true) : isNumberBlank c = false := by
  obtain ⟨hlow, hhigh⟩ := isDigit_iff.1 h
  have hspace : c ≠ ' ' := by
    rintro rfl
    exact absurd hlow (by decide)
  simp only [isNumberBlank, isAsciiBlank, Bool.or_eq_false_iff, Bool.and_eq_false_iff, beq_eq_false_iff_ne,
    decide_eq_false_iff_not]
  exact ⟨⟨hspace, .inr (by omega)⟩, .inl (by omega)⟩

/-- A row of digits ends where something else comes. -/
theorem Text.digits_append {ds rest : List Char} (hds : ∀ c ∈ ds, c.isDigit = true)
    (hrest : ∀ c ∈ rest.head?, c.isDigit = false) :
    (ds ++ rest).takeWhile Char.isDigit = ds ∧ (ds ++ rest).dropWhile Char.isDigit = rest := by
  rw [List.takeWhile_append_of_pos hds, List.dropWhile_append_of_pos hds]
  cases rest with
  | nil => exact ⟨List.append_nil _, rfl⟩
  | cons c cs =>
    have hc : ¬ c.isDigit = true := by
      rw [hrest c rfl]
      exact Bool.false_ne_true
    exact ⟨by rw [List.takeWhile_cons_of_neg hc, List.append_nil], List.dropWhile_cons_of_neg hc⟩

namespace Numeral

theorem natDigits_length_le {n k : Nat} (hk : 0 < k) (h : n < 10 ^ k) : (natDigits n).length ≤ k := by
  induction k generalizing n with
  | zero => omega
  | succ k ih =>
    unfold natDigits
    split
    · simp
    · next hn =>
      have hpos : 0 < k := by
        rcases k with _ | k
        · simp at h; omega
        · omega
      have hdiv : n / 10 < 10 ^ k := by rw [Nat.pow_succ] at h; omega
      have := ih hpos hdiv
      simp only [List.length_append, List.length_singleton]
      omega

/-- A number is below the power of ten with as many zeros as it has digits. -/
theorem lt_natDigits_length (n : Nat) : n < 10 ^ (natDigits n).length := by
  induction n using Nat.strongRecOn with
  | ind n ih =>
    unfold natDigits
    split
    · next hn => simpa using hn
    · next hn =>
      have hdiv := ih (n / 10) (by omega)
      rw [List.length_append, List.length_singleton, Nat.pow_succ]
      omega

/-- A power of ten has a digit more than zeros. -/
theorem natDigits_length_pow (k : Nat) : (natDigits (10 ^ k)).length = k + 1 := by
  have hle : (natDigits (10 ^ k)).length ≤ k + 1 :=
    natDigits_length_le (Nat.succ_pos k) (Nat.pow_lt_pow_succ (by decide))
  have hlt : k < (natDigits (10 ^ k)).length :=
    (Nat.pow_lt_pow_iff_right (by decide)).1 (lt_natDigits_length (10 ^ k))
  omega

/-- A number of too many digits is not written. -/
theorem write_eq_tooLarge {i : Int} (h : 10 ^ maxDigits ≤ i.natAbs) : write i = .error .tooLarge := by
  refine if_neg fun hle => ?_
  have hlt := lt_natDigits_length i.natAbs
  have hpow : 10 ^ (natDigits i.natAbs).length ≤ 10 ^ maxDigits := Nat.pow_le_pow_right (by decide) hle
  exact Nat.not_lt.2 (Nat.le_trans hpow h) hlt

theorem natDigits_length_le_maxDigits {n : Nat} (h : n < 10 ^ 20) :
    (natDigits n).length ≤ maxDigits := by
  have hlen := natDigits_length_le (by decide) h
  have : 20 ≤ maxDigits := by decide
  omega

theorem write_eq_text {i : Int} (h : i.natAbs < 10 ^ 20) : write i = .ok (text i) :=
  if_pos (natDigits_length_le_maxDigits h)

/-- Of a row of ASCII digits all are read. -/
theorem digitRun?_digits {cs : List Char} (h : ∀ c ∈ cs, c.isDigit = true) :
    digitRun? true cs = some (cs.map (·.toNat - 48), []) := by
  induction cs with
  | nil => rfl
  | cons c cs ih =>
    have hc := decimalDigit?_of_isDigit (h c (List.mem_cons_self ..))
    have hcs := ih fun d hd => h d (List.mem_cons_of_mem _ hd)
    simp only [digitRun?, hc, hcs, Option.map_some, List.map_cons]

theorem digitRun?_of_ne_nil {cs : List Char} (hne : cs ≠ []) (h : ∀ c ∈ cs, c.isDigit = true) :
    digitRun? false cs = some (cs.map (·.toNat - 48), []) := by
  rw [← digitRun?_digits h]
  cases cs with
  | nil => exact absurd rfl hne
  | cons c cs =>
    have hc := decimalDigit?_of_isDigit (h c (List.mem_cons_self ..))
    simp only [digitRun?, hc]

theorem ofDigitValues_map (cs : List Char) : ofDigitValues (cs.map (·.toNat - 48)) = value cs := by
  unfold ofDigitValues value
  rw [List.foldl_map]

/-- A numeral starts with a digit or a minus. -/
theorem dropWhile_digits_of {p : Char → Bool} (hdigit : ∀ c, c.isDigit = true → p c = false)
    (hminus : p '-' = false) (i : Int) : (digits i).dropWhile p = digits i := by
  unfold digits
  split
  · rw [List.dropWhile_cons_of_neg (by rw [hminus]; decide)]
  · have hne := natDigits_ne_nil i.natAbs
    have hall := natDigits_isDigit i.natAbs
    cases hcs : natDigits i.natAbs with
    | nil => exact absurd hcs hne
    | cons c cs =>
      have hc := hdigit c (hall c (hcs ▸ List.mem_cons_self ..))
      rw [List.dropWhile_cons_of_neg (by rw [hc]; decide)]

theorem dropWhile_digits (i : Int) : (digits i).dropWhile isNumberBlank = digits i :=
  dropWhile_digits_of (fun _ => isNumberBlank_of_isDigit) rfl i

theorem splitSign_of_isDigit {cs : List Char} (h : ∀ c ∈ cs, c.isDigit = true) :
    splitSign cs = (false, cs) := by
  unfold splitSign
  split
  · exact absurd (h '-' (List.mem_cons_self ..)) (by decide)
  · exact absurd (h '+' (List.mem_cons_self ..)) (by decide)
  · rfl

theorem splitSign_digits (i : Int) : splitSign (digits i) = (decide (i < 0), natDigits i.natAbs) := by
  unfold digits
  split
  · next h => rw [decide_eq_true h]; rfl
  · next h => rw [decide_eq_false h, splitSign_of_isDigit (natDigits_isDigit _)]

/-- A number that can be written is read back. -/
theorem read_text {i : Int} (h : (natDigits i.natAbs).length ≤ maxDigits) : read (text i) = .ok i := by
  have hrun := digitRun?_of_ne_nil (natDigits_ne_nil i.natAbs) (natDigits_isDigit i.natAbs)
  have hlen : ¬ maxDigits < ((natDigits i.natAbs).map (·.toNat - 48)).length := by
    rw [List.length_map]
    omega
  unfold read text
  simp only [String.toList_ofList, dropWhile_digits, splitSign_digits, hrun, if_neg hlen,
    ofDigitValues_map, value_natDigits, List.all_nil, if_true, decide_eq_true_eq]
  congr 1
  split <;> omega

end Numeral

end CasStore
