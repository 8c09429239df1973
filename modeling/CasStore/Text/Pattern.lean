/-!
# Patterns of repeated classes

A pattern is a row of character classes, each with a range of repetitions.  It matches a text when the
whole text splits into pieces, one for each class, in order.

    an optional class takes one character or none, `many` any number, `some` at least one
    a pattern accepts what splits into pieces, one for each part     (accepts_iff_matches)
-/

namespace CasStore.Text

/-- How often a class may occur. -/
inductive Repetition
  | optional
  | many
  | some
  deriving DecidableEq, Repr

/-- A class of characters and its repetitions. -/
structure Part (α : Type) where
  holds : α → Bool
  repetition : Repetition

/-- Classes in order. -/
abbrev Pattern (α : Type) := List (Part α)

variable {α : Type}

/-- Some first piece of `cs`, of characters of class `p`, leaves a rest that `rest` accepts.  Longer
pieces are tried first. -/
def manyThen (p : α → Bool) (rest : List α → Bool) : List α → Bool
  | [] => rest []
  | c :: cs => (p c && manyThen p rest cs) || rest (c :: cs)

/-- The pattern matches the whole of a text. -/
def Pattern.accepts : Pattern α → List α → Bool
  | [], cs => cs.isEmpty
  | ⟨p, .optional⟩ :: parts, cs =>
    (match cs with
      | c :: rest => p c && Pattern.accepts parts rest
      | [] => false) || Pattern.accepts parts cs
  | ⟨p, .many⟩ :: parts, cs => manyThen p (Pattern.accepts parts) cs
  | ⟨p, .some⟩ :: parts, cs =>
    match cs with
    | c :: rest => p c && manyThen p (Pattern.accepts parts) rest
    | [] => false

/-- So many characters are allowed. -/
def Repetition.Allows : Repetition → Nat → Prop
  | .optional, n => n ≤ 1
  | .many, _ => True
  | .some, n => 0 < n

/-- The piece is as many characters of the class as are allowed. -/
structure Part.Takes (part : Part α) (piece : List α) : Prop where
  holds : ∀ x ∈ piece, part.holds x = true
  allowed : part.repetition.Allows piece.length

/-- The text is put together of pieces, one for each part. -/
inductive Matches : Pattern α → List α → Prop
  | nil : Matches [] []
  | cons {part parts piece rest} (h : part.Takes piece) (hrest : Matches parts rest) :
      Matches (part :: parts) (piece ++ rest)

/-! ## Lemmas -/

/-- A piece of any number of characters of one class splits off exactly where it should. -/
theorem manyThen_iff {p : α → Bool} {rest : List α → Bool} {cs : List α} :
    manyThen p rest cs = true ↔
      ∃ front back, cs = front ++ back ∧ front.all p = true ∧ rest back = true := by
  induction cs with
  | nil =>
    constructor
    · intro h; exact ⟨[], [], rfl, rfl, h⟩
    · rintro ⟨front, back, h, -, hr⟩
      have := List.append_eq_nil_iff.1 h.symm
      simpa [manyThen, this.2] using hr
  | cons c cs ih =>
    simp only [manyThen, Bool.or_eq_true, Bool.and_eq_true, ih]
    constructor
    · rintro (⟨hc, front, back, rfl, hf, hr⟩ | hr)
      · exact ⟨c :: front, back, rfl, by rw [List.all_cons, hc, hf]; rfl, hr⟩
      · exact ⟨[], c :: cs, rfl, rfl, hr⟩
    · rintro ⟨front, back, h, hf, hr⟩
      cases front with
      | nil => exact .inr (by simpa [h] using hr)
      | cons d front =>
        obtain ⟨rfl, rfl⟩ := List.cons.inj h
        simp only [List.all_cons, Bool.and_eq_true] at hf
        exact .inl ⟨hf.1, front, back, rfl, hf.2, hr⟩

/-- A pattern accepts what begins with a piece for its first part and goes on with what the others accept. -/
theorem accepts_cons_iff {part : Part α} {parts : Pattern α} {xs : List α} :
    Pattern.accepts (part :: parts) xs = true ↔
      ∃ piece rest, xs = piece ++ rest ∧ part.Takes piece ∧ Pattern.accepts parts rest = true := by
  obtain ⟨p, repetition⟩ := part
  cases repetition with
  | optional =>
    constructor
    · intro h
      rcases Bool.or_eq_true_iff.1 h with hone | hnone
      · cases xs with
        | nil => cases hone
        | cons x xs =>
          obtain ⟨hx, hxs⟩ := Bool.and_eq_true_iff.1 hone
          exact ⟨[x], xs, rfl, ⟨fun y hy => List.mem_singleton.1 hy ▸ hx, Nat.le_refl 1⟩, hxs⟩
      · exact ⟨[], xs, rfl, ⟨fun y hy => absurd hy List.not_mem_nil, Nat.zero_le 1⟩, hnone⟩
    · rintro ⟨piece, rest, rfl, ⟨hholds, hallowed⟩, hrest⟩
      match piece with
      | [] => exact Bool.or_eq_true_iff.2 (.inr hrest)
      | [x] =>
        have hx := hholds x (List.mem_singleton_self x)
        exact Bool.or_eq_true_iff.2 (.inl (Bool.and_eq_true_iff.2 ⟨hx, hrest⟩))
      | x :: y :: piece => exact absurd (Nat.le_of_succ_le_succ hallowed) (Nat.not_succ_le_zero _)
  | many =>
    show manyThen p (Pattern.accepts parts) xs = true ↔ _
    rw [manyThen_iff]
    constructor
    · rintro ⟨piece, rest, rfl, hpiece, hrest⟩
      exact ⟨piece, rest, rfl, ⟨List.all_eq_true.1 hpiece, trivial⟩, hrest⟩
    · rintro ⟨piece, rest, rfl, ⟨hholds, -⟩, hrest⟩
      exact ⟨piece, rest, rfl, List.all_eq_true.2 hholds, hrest⟩
  | some =>
    constructor
    · intro h
      cases xs with
      | nil => cases h
      | cons x xs =>
        obtain ⟨hx, hxs⟩ := Bool.and_eq_true_iff.1 h
        obtain ⟨piece, rest, rfl, hpiece, hrest⟩ := manyThen_iff.1 hxs
        refine ⟨x :: piece, rest, rfl, ⟨?_, Nat.succ_pos _⟩, hrest⟩
        exact List.forall_mem_cons.2 ⟨hx, List.all_eq_true.1 hpiece⟩
    · rintro ⟨piece, rest, rfl, ⟨hholds, hallowed⟩, hrest⟩
      cases piece with
      | nil => exact absurd hallowed (Nat.lt_irrefl 0)
      | cons x piece =>
        obtain ⟨hx, hpiece⟩ := List.forall_mem_cons.1 hholds
        have hmany := manyThen_iff.2 ⟨piece, rest, rfl, List.all_eq_true.2 hpiece, hrest⟩
        exact Bool.and_eq_true_iff.2 ⟨hx, hmany⟩

/-- A pattern accepts a text exactly when it splits into pieces, one for each part. -/
theorem accepts_iff_matches {parts : Pattern α} {xs : List α} :
    Pattern.accepts parts xs = true ↔ Matches parts xs := by
  induction parts generalizing xs with
  | nil =>
    constructor
    · intro h
      rw [List.isEmpty_iff.1 h]
      exact .nil
    · intro h
      cases h
      rfl
  | cons part parts ih =>
    rw [accepts_cons_iff]
    constructor
    · rintro ⟨piece, rest, rfl, hpiece, hrest⟩
      exact .cons hpiece (ih.1 hrest)
    · intro h
      cases h with
      | cons hpiece hrest => exact ⟨_, _, rfl, hpiece, ih.2 hrest⟩

end CasStore.Text
