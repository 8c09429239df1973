import CasStore.Backend

/-!
# Versions over a run of commands

What a store shows is its documents by key and the highest version it has given out.  `Move` says what
carrying out one command may do to that, for any store of versioned documents: a write puts a document
with the next version in place, a removal takes one away, and everything else leaves things as they are.

    every stored version is at most the highest given out            (Move.bounded)
    the highest version never sinks, and counts the writes           (Move.last_le, Moves.last_eq)
    a version that no document of a key has any more never returns   (Moves.gone)
-/

namespace CasStore

variable {σ : Type}

/-! ## Algorithm -/

/-- What a store shows: documents by key, and the highest version given out. -/
structure View where
  doc? : Key → Option Document
  last : Int

namespace View

/-- A document of this content, with the next version. -/
def next (v : View) (content : String) : Document := ⟨content, ⟨v.last + 1⟩⟩

/-- The view after a write has put `d` under a key. -/
def put (v : View) (k : Key) (d : Document) : View :=
  ⟨fun l => if l = k then some d else v.doc? l, v.last + 1⟩

/-- The view after the document under a key has been removed. -/
def drop (v : View) (k : Key) : View := ⟨fun l => if l = k then none else v.doc? l, v.last⟩

/-- Every stored version is at most the highest given out. -/
def Bounded (v : View) : Prop := ∀ k d, v.doc? k = some d → d.version.number ≤ v.last

/-- No document under `k` has version `w`, and none will: `w` has been given out before. -/
structure Gone (v : View) (k : Key) (w : Version) : Prop where
  given : w.number ≤ v.last
  absent : ∀ d, v.doc? k = some d → d.version ≠ w

end View

/-- The key of the examples. -/
abbrev Key.a : Key := ⟨"a", by decide⟩

namespace Command

/-- A command that stores a document when it succeeds. -/
def isWrite : Command → Bool
  | .create _ _ | .update _ _ _ | .increment _ _ => true
  | _ => false

/-- A command that stores or removes a document when it succeeds. -/
def isChange : Command → Bool
  | .get _ | .getCounter _ => false
  | _ => true

end Command

/-- What carrying out a command may do to what a store shows, and what it then answers. -/
inductive Move (v : View) : Command → Except Fault LooseResult → View → Prop
  | read {k d} (h : v.doc? k = some d) : Move v (.get k) (.ok (.inl (.ok d.toValue))) v
  | counted {k i} : Move v (.getCounter k) (.ok (.inl (.ok (.int i)))) v
  | created {k content} (h : v.doc? k = none) :
      Move v (.create k content) (.ok (.inl (.ok (v.next content).toValue)))
        (v.put k (v.next content))
  | updated {k content w d} (h : v.doc? k = some d) (hw : w.isSet = true → d.version = w) :
      Move v (.update k content w) (.ok (.inl (.ok (v.next content).toValue)))
        (v.put k (v.next content))
  | removed {k d} (h : v.doc? k = some d) : Move v (.remove k) (.ok (.inl (.ok .null))) (v.drop k)
  | increased {k delta content i} :
      Move v (.increment k delta) (.ok (.inl (.ok (.int i)))) (v.put k (v.next content))
  | failed {c a} (h : ∀ x, a ≠ .ok (.inl (.ok x))) : Move v c a v

/-- A command carried out: what came of it, and the run before and after. -/
structure Turn (σ : Type) where
  command : Command
  answer : Except Fault LooseResult
  before : Run σ
  after : Run σ

namespace Turn

/-- The command succeeded with a value. -/
def Answers (t : Turn σ) (v : Value) : Prop := t.answer = .ok (.inl (.ok v))

/-- The command succeeded. -/
def Succeeds (t : Turn σ) : Prop := ∃ v, t.Answers v

instance (t : Turn σ) : Decidable t.Succeeds :=
  match h : t.answer with
  | .ok (.inl (.ok v)) => .isTrue ⟨v, h⟩
  | .ok (.inl (.error _)) | .ok (.inr _) | .error _ =>
    .isFalse fun ⟨v, hv⟩ => by rw [Answers, h] at hv; cases hv

/-- The command failed since the document has another version than the one demanded. -/
def Conflicts (t : Turn σ) : Prop :=
  ∃ e, t.answer = .ok (.inl (.error e)) ∧ e.kindName = FaultKind.versionConflict.name

/-- The document under `k` was written or removed. -/
def Changes (t : Turn σ) (k : Key) : Prop :=
  t.command.key = k ∧ t.command.isChange = true ∧ t.Succeeds

/-- The command stored a document. -/
def Writes (t : Turn σ) : Prop := t.command.isWrite = true ∧ t.Succeeds

instance (t : Turn σ) : Decidable t.Writes := inferInstanceAs (Decidable (_ ∧ _))

/-- The turn is a move of what the world shows, and nothing in the world changed if it failed. -/
structure IsMove (view : σ → View) (t : Turn σ) : Prop where
  move : Move (view t.before.world) t.command t.answer (view t.after.world)
  unchanged : ¬ t.Succeeds → t.after.world = t.before.world

end Turn

/-- Carries out one command; what it changed before raising stays changed. -/
def Backend.turn (b : Backend σ) (c : Command) (s : Run σ) : Turn σ :=
  match b.perform c s with
  | .ok r s' => ⟨c, .ok r, s, s'⟩
  | .error e s' => ⟨c, .error e, s, s'⟩

/-- The commands of any number of clients, each with its own backend, carried out one after another. -/
def turns : List (Backend σ × Command) → Run σ → List (Turn σ)
  | [], _ => []
  | (b, c) :: rest, s => b.turn c s :: turns rest (b.turn c s).after

/-- The run after the commands of any number of clients. -/
def afterTurns : List (Backend σ × Command) → Run σ → Run σ
  | [], s => s
  | (b, c) :: rest, s => afterTurns rest (b.turn c s).after

/-- Moves one after another lead from one run to another. -/
inductive Moves (view : σ → View) : Run σ → List (Turn σ) → Run σ → Prop
  | nil (s) : Moves view s [] s
  | cons {t ts s'} (h : t.IsMove view) (hs : Moves view t.after ts s') : Moves view t.before (t :: ts) s'

/-! ## Lemmas -/

theorem Document.toValue_injective {d e : Document} (h : d.toValue = e.toValue) : d = e := by
  cases d
  cases e
  cases h
  rfl

@[simp] theorem View.doc?_put (v : View) (k l : Key) (d : Document) :
    (v.put k d).doc? l = if l = k then some d else v.doc? l := rfl

@[simp] theorem View.doc?_drop (v : View) (k l : Key) :
    (v.drop k).doc? l = if l = k then none else v.doc? l := rfl

theorem View.doc?_put_self (v : View) (k : Key) (d : Document) : (v.put k d).doc? k = some d :=
  if_pos rfl

@[simp] theorem Backend.command_turn (b : Backend σ) (c : Command) (s : Run σ) :
    (b.turn c s).command = c := by
  unfold turn
  split <;> rfl

@[simp] theorem Backend.before_turn (b : Backend σ) (c : Command) (s : Run σ) :
    (b.turn c s).before = s := by
  unfold turn
  split <;> rfl

theorem Turn.not_succeeds_of_conflicts {t : Turn σ} (h : t.Conflicts) : ¬ t.Succeeds := by
  rintro ⟨v, hv⟩
  obtain ⟨e, he, -⟩ := h
  rw [Answers, he] at hv
  cases hv

/-! ### One move -/

namespace Move

variable {v v' : View} {c : Command} {a : Except Fault LooseResult}

theorem last_le (h : Move v c a v') : v.last ≤ v'.last := by
  cases h with
  | read | counted | removed | failed => exact Int.le_refl _
  | created | updated | increased => exact Int.le_of_lt (Int.lt_succ _)

/-- A document in place after a move was there before, or has just been given the next version. -/
theorem doc?_after (h : Move v c a v') {k : Key} {d : Document} (hd : v'.doc? k = some d) :
    v.doc? k = some d ∨ (d.version.number = v.last + 1 ∧ v'.last = v.last + 1) := by
  cases h with
  | read | counted | failed => exact .inl hd
  | removed =>
    rw [View.doc?_drop] at hd
    split at hd
    · cases hd
    · exact .inl hd
  | created | updated | increased =>
    rw [View.doc?_put] at hd
    split at hd
    · cases hd; exact .inr ⟨rfl, rfl⟩
    · exact .inl hd

theorem bounded (h : Move v c a v') (hv : v.Bounded) : v'.Bounded := by
  intro k d hd
  have hlast := h.last_le
  rcases h.doc?_after hd with hd | ⟨hd, hl⟩
  · have := hv k d hd
    omega
  · omega

/-- Other keys are not touched. -/
theorem doc?_of_ne (h : Move v c a v') {k : Key} (hk : k ≠ c.key) : v'.doc? k = v.doc? k := by
  cases h with
  | read | counted | failed => rfl
  | removed => rw [View.doc?_drop]; exact if_neg hk
  | created | updated | increased => rw [View.doc?_put]; exact if_neg hk

/-- A successful write stores a document with the next version. -/
theorem written (h : Move v c a v') (hc : c.isWrite = true) {x : Value} (ha : a = .ok (.inl (.ok x))) :
    v'.last = v.last + 1 ∧ ∃ content, v'.doc? c.key = some (v.next content) := by
  cases h with
  | read | counted | removed => cases hc
  | failed hf => exact absurd ha (hf x)
  | created | updated | increased => exact ⟨rfl, _, View.doc?_put_self ..⟩

/-- A successful creation or update answers with the document it has stored. -/
theorem answer_written (h : Move v c a v') (hc : c.isWrite = true) (hi : ∀ k i, c ≠ .increment k i)
    {x : Value} (ha : a = .ok (.inl (.ok x))) :
    ∃ d, x = d.toValue ∧ v'.doc? c.key = some d ∧ d.version.number = v.last + 1 := by
  cases h with
  | read | counted | removed => cases hc
  | failed hf => exact absurd ha (hf x)
  | increased => exact absurd rfl (hi _ _)
  | created | updated => cases ha; exact ⟨_, rfl, View.doc?_put_self .., rfl⟩

/-- Nothing else gives out a version. -/
theorem not_written (h : Move v c a v') (hc : c.isWrite = false ∨ ∀ x, a ≠ .ok (.inl (.ok x))) :
    v'.last = v.last ∧ ∀ k d, v'.doc? k = some d → v.doc? k = some d := by
  cases h with
  | read | counted | failed => exact ⟨rfl, fun _ _ hd => hd⟩
  | removed =>
    refine ⟨rfl, fun k d hd => ?_⟩
    rw [View.doc?_drop] at hd
    split at hd
    · cases hd
    · exact hd
  | created | updated | increased =>
    rcases hc with hc | hc
    · cases hc
    · exact absurd rfl (hc _)

/-- A document answered is in place afterwards. -/
theorem obtained (h : Move v c a v') {d : Document} (ha : a = .ok (.inl (.ok d.toValue))) :
    v'.doc? c.key = some d := by
  have hinj : ∀ x, (Except.ok (.inl (.ok x)) : Except Fault LooseResult) = a → x = d.toValue := by
    rintro x rfl
    cases ha
    rfl
  cases h with
  | read hd => rw [← Document.toValue_injective (hinj _ rfl)]; exact hd
  | counted | removed | increased => cases ha
  | failed hf => exact absurd ha (hf _)
  | created | updated =>
    rw [← Document.toValue_injective (hinj _ rfl)]
    exact View.doc?_put_self ..

/-- A successful update that demands a version finds it in place, and replaces it by a new one. -/
theorem updated_inv {k : Key} {content : String} {w : Version} (h : Move v (.update k content w) a v')
    {x : Value} (ha : a = .ok (.inl (.ok x))) (hw : w.isSet = true) :
    (∃ d, v.doc? k = some d ∧ d.version = w) ∧ v'.doc? k = some (v.next content) ∧
      v'.last = v.last + 1 := by
  cases h with
  | failed hf => exact absurd ha (hf x)
  | updated hd hw' => exact ⟨⟨_, hd, hw' hw⟩, View.doc?_put_self .., rfl⟩

theorem gone (h : Move v c a v') {k : Key} {w : Version} (hg : v.Gone k w) : v'.Gone k w := by
  have hlast := h.last_le
  have hgiven := hg.given
  refine ⟨by omega, fun d hd => ?_⟩
  rcases h.doc?_after hd with hd | ⟨hd, -⟩
  · exact hg.absent d hd
  · rintro rfl
    omega

/-- A version in place stays there until the key is changed, and is gone then. -/
theorem kept_or_gone (h : Move v c a v') {k : Key} {d : Document} (hd : v.doc? k = some d)
    (hb : d.version.number ≤ v.last) :
    (v'.doc? k = some d ∧ ¬ (c.key = k ∧ c.isChange = true ∧ ∃ x, a = .ok (.inl (.ok x)))) ∨
      v'.Gone k d.version := by
  by_cases hk : k = c.key
  · cases h with
    | read | counted => exact .inl ⟨hd, fun h' => by cases h'.2.1⟩
    | failed hf => exact .inl ⟨hd, fun h' => h'.2.2.elim hf⟩
    | removed =>
      refine .inr ⟨hb, fun d' hd' => ?_⟩
      rw [hk] at hd'
      simp only [View.doc?_drop, Command.key, if_true] at hd'
      cases hd'
    | created | updated | increased =>
      refine .inr ⟨by simp only [View.put]; omega, fun d' hd' => ?_⟩
      rw [hk] at hd'
      simp only [View.doc?_put, Command.key, if_true, Option.some.injEq] at hd'
      subst hd'
      intro heq
      have : v.last + 1 = d.version.number := congrArg Version.number heq
      omega
  · exact .inl ⟨by rw [h.doc?_of_ne hk, hd], fun h' => hk h'.1.symm⟩

end Move

/-! ### Many moves -/

namespace Moves

variable {view : σ → View} {s s' : Run σ} {ts us : List (Turn σ)}

theorem append_iff : Moves view s (ts ++ us) s' ↔ ∃ r, Moves view s ts r ∧ Moves view r us s' := by
  induction ts generalizing s with
  | nil =>
    constructor
    · intro h; exact ⟨s, .nil s, h⟩
    · rintro ⟨r, h, h'⟩; cases h; exact h'
  | cons t ts ih =>
    constructor
    · intro h
      cases h with
      | cons ht hs =>
        obtain ⟨r, h, h'⟩ := ih.1 hs
        exact ⟨r, .cons ht h, h'⟩
    · rintro ⟨r, h, h'⟩
      cases h with
      | cons ht hs => exact .cons ht (ih.2 ⟨r, hs, h'⟩)

theorem isMove (h : Moves view s ts s') : ∀ t ∈ ts, t.IsMove view := by
  induction h with
  | nil s => intro t ht; cases ht
  | cons ht hs ih =>
    intro t' ht'
    rcases List.mem_cons.1 ht' with rfl | ht'
    · exact ht
    · exact ih t' ht'

theorem last_le (h : Moves view s ts s') : (view s.world).last ≤ (view s'.world).last := by
  induction h with
  | nil s => exact Int.le_refl _
  | cons ht hs ih => exact Int.le_trans ht.move.last_le ih

/-- The last version counts the writes. -/
theorem last_eq (h : Moves view s ts s') :
    (view s'.world).last = (view s.world).last + ts.countP fun t => t.Writes := by
  induction h with
  | nil s => rw [List.countP_nil, Int.natCast_zero, Int.add_zero]
  | @cons t ts s' ht hs ih =>
    rw [ih, List.countP_cons]
    by_cases hw : t.Writes
    · obtain ⟨hlast, -⟩ := ht.move.written hw.1 hw.2.choose_spec
      simp only [hw, decide_true, if_true]
      omega
    · have hnot : t.command.isWrite = false ∨ ∀ x, t.answer ≠ .ok (.inl (.ok x)) := by
        cases hc : t.command.isWrite with
        | false => exact .inl rfl
        | true => exact .inr fun x hx => hw ⟨hc, x, hx⟩
      obtain ⟨hlast, -⟩ := ht.move.not_written hnot
      simp only [hw, decide_false, Bool.false_eq_true, if_false]
      omega

theorem bounded (h : Moves view s ts s') (hb : (view s.world).Bounded) : (view s'.world).Bounded := by
  induction h with
  | nil s => exact hb
  | cons ht hs ih => exact ih (ht.move.bounded hb)

theorem gone (h : Moves view s ts s') {k : Key} {w : Version} (hg : (view s.world).Gone k w) :
    (view s'.world).Gone k w := by
  induction h with
  | nil s => exact hg
  | cons ht hs ih => exact ih (ht.move.gone hg)

/-- A version in place stays there as long as the key is not changed, and is gone for good after that. -/
theorem kept_or_gone (h : Moves view s ts s') {k : Key} {d : Document}
    (hd : (view s.world).doc? k = some d) (hb : d.version.number ≤ (view s.world).last) :
    ((view s'.world).doc? k = some d ∧ ∀ t ∈ ts, ¬ t.Changes k) ∨
      (view s'.world).Gone k d.version := by
  -- the document stays in place up to the first change of its key; from there on its version is gone
  induction h with
  | nil s => exact .inl ⟨hd, fun t ht => by cases ht⟩
  | cons ht hs ih =>
    rcases ht.move.kept_or_gone hd hb with ⟨hd', hnot⟩ | hg
    · have hlast := ht.move.last_le
      rcases ih hd' (by omega) with ⟨hd'', hrest⟩ | hg
      · refine .inl ⟨hd'', fun t' ht' => ?_⟩
        rcases List.mem_cons.1 ht' with rfl | ht'
        · exact hnot
        · exact hrest t' ht'
      · exact .inr hg
    · exact .inr (hs.gone hg)

end Moves

end CasStore
