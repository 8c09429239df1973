import CasStore.Proofs.Memory

/-!
# Keys beside each other

A store in memory takes the versions of all keys from one sequence, so a write under one key moves the
versions of later writes under every other.  Nothing else passes from key to key.  Where no update
demands a version, what the commands on a key come to depends on the content that the key started with
and on those commands alone, apart from the versions in the answers.

    commands on other keys leave a content as it is                  (content?_afterCommand_of_ne)
    a command is answered alike where the content of its key is      (answered_of_content)
    commands are answered as if those on other keys were left out    (answersOf_filter)
    any two interleavings give every client the same answers         (keys_separate)
-/

namespace CasStore

variable {σ α : Type}

/-! ## Algorithm -/

/-- The command demands no version. -/
def Command.Unconditional : Command → Prop
  | .update _ _ v => v.isSet = false
  | _ => True

instance : DecidablePred Command.Unconditional
  | .update _ _ v => inferInstanceAs (Decidable (v.isSet = false))
  | .get _ | .create _ _ | .remove _ | .getCounter _ | .increment _ _ => .isTrue trivial

/-- A value, the version erased that a document has. -/
def Value.unversioned : Value → Value
  | .document content _ => .document content .none
  | v => v

/-- What a command comes to, the version erased of a document that it answers with. -/
def unversioned : Except Fault LooseResult → Except Fault LooseResult
  | .ok (.inl (.ok v)) => .ok (.inl (.ok v.unversioned))
  | a => a

namespace Store

/-- The stores have the same content under every key of `P`. -/
def SameContent (P : Key → Prop) (s t : Store) : Prop := ∀ k, P k → s.content? k = t.content? k

/-- A command has come to the same in both, apart from versions, and left the same under `k`. -/
inductive Applied (k : Key) :
    Except Refusal (Answer × Store) → Except Refusal (Answer × Store) → Prop
  | done {a b s t} (hanswer : a.toValue.unversioned = b.toValue.unversioned)
      (h : s.content? k = t.content? k) : Applied k (.ok (a, s)) (.ok (b, t))
  | refused {r} : Applied k (.error r) (.error r)

/-- The commands that acts stand for, each carried out on the store in `slot`. -/
def acting (slot : Slot σ Store) (command : α → Command) (acts : List α) : List (Backend σ × Command) :=
  commands slot (acts.map command)

/-- What some of the acts are answered, in order and without versions. -/
def answersOf (slot : Slot σ Store) (command : α → Command) (mine : α → Bool) (acts : List α)
    (s : Run σ) : List (Except Fault LooseResult) :=
  ((acts.zip (turns (acting slot command acts) s)).filter fun p => mine p.1).map fun p =>
    unversioned p.2.answer

/-- The store after all of the acts. -/
def afterActs (slot : Slot σ Store) (command : α → Command) (acts : List α) (s : Run σ) : Store :=
  slot.get (afterTurns (acting slot command acts) s).world

end Store

/-- No two clients use one key. -/
def KeysDisjoint (acts : List (Nat × Command)) : Prop :=
  ∀ a ∈ acts, ∀ b ∈ acts, a.2.key = b.2.key → a.1 = b.1

instance (acts : List (Nat × Command)) : Decidable (KeysDisjoint acts) :=
  inferInstanceAs (Decidable (∀ a ∈ acts, ∀ b ∈ acts, _))

/-- Every client issues the same commands in the same order; how they interleave may differ. -/
def SameClients (acts acts' : List (Nat × Command)) : Prop :=
  ∀ i, acts.filter (·.1 == i) = acts'.filter (·.1 == i)

/-! ## Lemmas -/

namespace Store

/-! ### One command -/

theorem content?_erase (s : Store) (k : Key) : content? k { s with docs := s.docs.erase k } = none := by
  rw [content?, Table.find?_erase, if_pos rfl]
  rfl

/-- A command leaves the content under any other key as it is. -/
theorem content?_afterCommand_of_ne {c : Command} {k : Key} (s : Store) (hk : k ≠ c.key) :
    (s.afterCommand c).content? k = s.content? k :=
  congrArg (Option.map Document.content) ((answered_move s c).doc?_of_ne hk)

/-- Under a key there is nothing in both, or documents of one content. -/
theorem find?_of_content {s t : Store} {k : Key} (h : s.content? k = t.content? k) :
    (s.docs.find? k = none ∧ t.docs.find? k = none) ∨
      ∃ d e, s.docs.find? k = some d ∧ t.docs.find? k = some e ∧ d.content = e.content := by
  unfold content? at h
  cases hs : s.docs.find? k with
  | none =>
    rw [hs] at h
    exact .inl ⟨rfl, Option.map_eq_none_iff.1 h.symm⟩
  | some d =>
    rw [hs] at h
    obtain ⟨e, he, hcontent⟩ := Option.map_eq_some_iff.1 h.symm
    exact .inr ⟨d, e, rfl, he, hcontent.symm⟩

theorem Applied.written (s t : Store) (k : Key) (content : String) :
    Applied k (.ok (.document (s.write k content).1, (s.write k content).2))
      (.ok (.document (t.write k content).1, (t.write k content).2)) :=
  .done rfl (by rw [content?_write, content?_write])

theorem Applied.counted (s t : Store) (k : Key) (i : Int) :
    Applied k (s.writeCounter k i) (t.writeCounter k i) := by
  unfold writeCounter
  split
  · exact .refused
  · exact .done rfl (by rw [content?_write, content?_write])

/-- A command without a version does alike where the content of its key is alike. -/
theorem applied_of_content {s t : Store} {c : Command} (hc : c.Unconditional)
    (h : s.content? c.key = t.content? c.key) : Applied c.key (s.apply c) (t.apply c) := by
  cases c with
  | get k =>
    rcases find?_of_content (k := k) h with ⟨hs, ht⟩ | ⟨d, e, hs, ht, hcontent⟩
    · simp only [apply, hs, ht]
      exact .refused
    · simp only [apply, hs, ht]
      refine .done ?_ h
      simp only [Answer.toValue, Document.toValue, Value.unversioned, hcontent]
  | create k content =>
    rcases find?_of_content (k := k) h with ⟨hs, ht⟩ | ⟨d, e, hs, ht, -⟩
    · simp only [apply, Table.contains, hs, ht]
      exact .written s t k content
    · simp only [apply, Table.contains, hs, ht]
      exact .refused
  | update k content v =>
    rcases find?_of_content (k := k) h with ⟨hs, ht⟩ | ⟨d, e, hs, ht, -⟩
    · simp only [apply, hs, ht]
      exact .refused
    · simp only [apply, hs, ht, show v.isSet = false from hc, Bool.false_and]
      exact .written s t k content
  | remove k =>
    rcases find?_of_content (k := k) h with ⟨hs, ht⟩ | ⟨d, e, hs, ht, -⟩
    · simp only [apply, Table.contains, hs, ht]
      exact .refused
    · simp only [apply, Table.contains, hs, ht]
      exact .done rfl ((content?_erase s k).trans (content?_erase t k).symm)
  | getCounter k =>
    rcases find?_of_content (k := k) h with ⟨hs, ht⟩ | ⟨d, e, hs, ht, hcontent⟩
    · simp only [apply, hs, ht]
      exact .refused
    · simp only [apply, hs, ht, hcontent]
      cases readCounter e.content with
      | error r => exact .refused
      | ok i => exact .done rfl h
  | increment k delta =>
    rcases find?_of_content (k := k) h with ⟨hs, ht⟩ | ⟨d, e, hs, ht, hcontent⟩
    · simp only [apply, hs, ht]
      exact .counted s t k delta
    · simp only [apply, hs, ht, hcontent]
      cases readCounter e.content with
      | error r => exact .refused
      | ok i => exact .counted s t k (i + delta)

/-- A command without a version is answered alike, and leaves the content of its key alike. -/
theorem answered_of_content {s t : Store} {c : Command} (hc : c.Unconditional)
    (h : s.content? c.key = t.content? c.key) :
    unversioned (s.answered c) = unversioned (t.answered c) ∧
      (s.afterCommand c).content? c.key = (t.afterCommand c).content? c.key := by
  have happlied := applied_of_content hc h
  unfold answered afterCommand
  generalize s.apply c = left, t.apply c = right at happlied ⊢
  cases happlied with
  | done hanswer hcontent =>
    refine ⟨?_, hcontent⟩
    simp only [unversioned, hanswer]
  | refused => exact ⟨rfl, h⟩

/-! ### Runs of commands -/

section Runs

variable {slot : Slot σ Store} {command : α → Command} {mine : α → Bool} {P : Key → Prop} {s t : Run σ}

theorem answersOf_cons (mine : α → Bool) (a : α) (acts : List α) (s : Run σ) :
    answersOf slot command mine (a :: acts) s =
      if mine a then unversioned ((backend slot).turn (command a) s).answer ::
        answersOf slot command mine acts ((backend slot).turn (command a) s).after
      else answersOf slot command mine acts ((backend slot).turn (command a) s).after := by
  have hturns : turns (acting slot command (a :: acts)) s = (backend slot).turn (command a) s ::
    turns (acting slot command acts) ((backend slot).turn (command a) s).after := rfl
  rw [answersOf, hturns, List.zip_cons_cons, List.filter_cons]
  cases mine a <;> rfl

/-- A command on a key of `P` is answered alike, and keeps the contents alike. -/
theorem SameContent.turn (hslot : slot.Lawful)
    (h : SameContent P (slot.get s.world) (slot.get t.world)) {c : Command} (hc : c.Unconditional)
    (hkey : P c.key) :
    unversioned ((backend slot).turn c s).answer = unversioned ((backend slot).turn c t).answer ∧
      SameContent P (slot.get ((backend slot).turn c s).after.world)
        (slot.get ((backend slot).turn c t).after.world) := by
  obtain ⟨hanswer, hcontent⟩ := answered_of_content hc (h c.key hkey)
  refine ⟨?_, fun k hk => ?_⟩
  · rw [answer_turn, answer_turn]
    exact hanswer
  · rw [get_turn hslot, get_turn hslot]
    by_cases hkc : k = c.key
    · rw [hkc]
      exact hcontent
    · rw [content?_afterCommand_of_ne _ hkc, content?_afterCommand_of_ne _ hkc]
      exact h k hk

/-- A command on another key is not seen. -/
theorem SameContent.turn_left (hslot : slot.Lawful)
    (h : SameContent P (slot.get s.world) (slot.get t.world)) {c : Command} (hkey : ¬ P c.key) :
    SameContent P (slot.get ((backend slot).turn c s).after.world) (slot.get t.world) := by
  intro k hk
  have hne : k ≠ c.key := by
    rintro rfl
    exact hkey hk
  rw [get_turn hslot, content?_afterCommand_of_ne _ hne]
  exact h k hk

/-- The acts on keys of `P` are answered as if the others were left out, and leave the same contents
under these keys. -/
theorem answersOf_filter (hslot : slot.Lawful) {acts : List α}
    (hmine : ∀ a ∈ acts, mine a = true ↔ P (command a).key)
    (hfree : ∀ a ∈ acts, mine a = true → (command a).Unconditional)
    (h : SameContent P (slot.get s.world) (slot.get t.world)) :
    answersOf slot command mine acts s = answersOf slot command mine (acts.filter mine) t ∧
      SameContent P (afterActs slot command acts s) (afterActs slot command (acts.filter mine) t) := by
  induction acts generalizing s t with
  | nil => exact ⟨rfl, h⟩
  | cons a acts ih =>
    have hmine' : ∀ b ∈ acts, mine b = true ↔ P (command b).key := fun b hb =>
      hmine b (List.mem_cons_of_mem _ hb)
    have hfree' : ∀ b ∈ acts, mine b = true → (command b).Unconditional := fun b hb =>
      hfree b (List.mem_cons_of_mem _ hb)
    have hkey := hmine a (List.mem_cons_self ..)
    rw [answersOf_cons, List.filter_cons]
    cases ha : mine a with
    | true =>
      obtain ⟨hanswer, hafter⟩ := h.turn hslot (hfree a (List.mem_cons_self ..) ha) (hkey.1 ha)
      obtain ⟨hanswers, hcontents⟩ := ih hmine' hfree' hafter
      rw [if_pos rfl, if_pos rfl, answersOf_cons, ha, if_pos rfl, hanswer, hanswers]
      exact ⟨rfl, hcontents⟩
    | false =>
      have hother : ¬ P (command a).key := fun hP => Bool.false_ne_true (ha ▸ hkey.2 hP)
      rw [if_neg Bool.false_ne_true, if_neg Bool.false_ne_true]
      exact ih hmine' hfree' (h.turn_left hslot hother)

/-- Runs with the same acts on keys of `P`, from the same contents there, come to the same. -/
theorem answersOf_of_filter_eq (hslot : slot.Lawful) (command : α → Command) {acts acts' : List α}
    (hmine : ∀ a, a ∈ acts ∨ a ∈ acts' → (mine a = true ↔ P (command a).key))
    (hfree : ∀ a ∈ acts, mine a = true → (command a).Unconditional)
    (hacts : acts.filter mine = acts'.filter mine)
    (h : SameContent P (slot.get s.world) (slot.get t.world)) :
    answersOf slot command mine acts s = answersOf slot command mine acts' t ∧
      SameContent P (afterActs slot command acts s) (afterActs slot command acts' t) := by
  have hfree' : ∀ a ∈ acts', mine a = true → (command a).Unconditional := fun a ha hm => by
    have hmem : a ∈ acts.filter mine := hacts ▸ List.mem_filter.2 ⟨ha, hm⟩
    exact hfree a (List.mem_filter.1 hmem).1 hm
  obtain ⟨hanswers, hcontents⟩ := answersOf_filter hslot (fun a ha => hmine a (.inl ha)) hfree h
  obtain ⟨hanswers', hcontents'⟩ := answersOf_filter hslot (s := t) (t := t)
    (fun a ha => hmine a (.inr ha)) hfree' fun _ _ => rfl
  refine ⟨?_, fun k hk => ?_⟩
  · rw [hanswers, hanswers', hacts]
  · rw [hcontents k hk, hcontents' k hk, hacts]

end Runs

end Store

/-! ### Interleavings -/

section Interleavings

variable {acts acts' : List (Nat × Command)}

theorem SameClients.mem_iff (h : SameClients acts acts') (a : Nat × Command) :
    a ∈ acts ↔ a ∈ acts' := by
  have hmem := congrArg (a ∈ ·) (h a.1)
  simpa using hmem

/-- A key that no one but client `i` uses. -/
def OnlyUsedBy (acts : List (Nat × Command)) (i : Nat) (k : Key) : Prop :=
  ∀ a ∈ acts, a.2.key = k → a.1 = i

/-- The commands of a client are those on the keys that no one else uses. -/
theorem KeysDisjoint.onlyUsedBy_iff (h : KeysDisjoint acts) {a : Nat × Command} (ha : a ∈ acts) (i : Nat) :
    (a.1 == i) = true ↔ OnlyUsedBy acts i a.2.key := by
  rw [beq_iff_eq]
  constructor
  · rintro rfl b hb hkey
    exact h b hb a ha hkey
  · exact fun honly => honly a ha rfl

/-- Every key is used by one client at most. -/
theorem KeysDisjoint.exists_onlyUsedBy (h : KeysDisjoint acts) (k : Key) : ∃ i, OnlyUsedBy acts i k := by
  by_cases hused : ∃ a ∈ acts, a.2.key = k
  · obtain ⟨a, ha, rfl⟩ := hused
    exact ⟨a.1, (h.onlyUsedBy_iff ha a.1).1 (beq_self_eq_true _)⟩
  · exact ⟨0, fun a ha hkey => absurd ⟨a, ha, hkey⟩ hused⟩

end Interleavings

/-! ## Top theorems -/

/-- Keys do not interfere.  The commands on a key are answered alike and leave the same content in any
two runs that have these commands in common and start from the same content under the key, whatever
other keys hold and whatever is done to them.  So clients that share no key are answered alike however
their commands interleave, and leave the same contents. -/
theorem keys_separate (slot : Slot σ Store) (hslot : slot.Lawful) :
    (∀ (k : Key) (cs cs' : List Command) (s t : Run σ),
      (slot.get s.world).content? k = (slot.get t.world).content? k →
      (∀ c ∈ cs, c.key = k → c.Unconditional) →
      cs.filter (·.key == k) = cs'.filter (·.key == k) →
      Store.answersOf slot id (·.key == k) cs s = Store.answersOf slot id (·.key == k) cs' t ∧
        (Store.afterActs slot id cs s).content? k = (Store.afterActs slot id cs' t).content? k) ∧
    ∀ (acts acts' : List (Nat × Command)) (s t : Run σ),
      (∀ k, (slot.get s.world).content? k = (slot.get t.world).content? k) →
      (∀ a ∈ acts, a.2.Unconditional) → KeysDisjoint acts → SameClients acts acts' →
      (∀ i, Store.answersOf slot Prod.snd (·.1 == i) acts s =
        Store.answersOf slot Prod.snd (·.1 == i) acts' t) ∧
      ∀ k, (Store.afterActs slot Prod.snd acts s).content? k =
        (Store.afterActs slot Prod.snd acts' t).content? k := by
  refine ⟨fun k cs cs' s t h hfree hcs => ?_, fun acts acts' s t h hfree hdisjoint hclients => ?_⟩
  · have hsame : Store.SameContent (· = k) (slot.get s.world) (slot.get t.world) := by
      rintro l rfl
      exact h
    obtain ⟨hanswers, hcontents⟩ := Store.answersOf_of_filter_eq hslot id
      (fun c _ => beq_iff_eq) (fun c hc hkey => hfree c hc (beq_iff_eq.1 hkey)) hcs hsame
    exact ⟨hanswers, hcontents k rfl⟩
  · have hkeys : ∀ i a, a ∈ acts ∨ a ∈ acts' → ((a.1 == i) = true ↔ OnlyUsedBy acts i a.2.key) := by
      intro i a ha
      exact hdisjoint.onlyUsedBy_iff (ha.elim id (hclients.mem_iff a).2) i
    have hrun := fun i => Store.answersOf_of_filter_eq hslot Prod.snd (s := s) (t := t) (hkeys i)
      (fun a ha _ => hfree a ha) (hclients i) fun k _ => h k
    refine ⟨fun i => (hrun i).1, fun k => ?_⟩
    obtain ⟨i, hi⟩ := hdisjoint.exists_onlyUsedBy k
    exact (hrun i).2 k hi

/-- A document and a counter. -/
def besideStart : StartMap where
  docs := .ofList [(.a, ⟨"x", ⟨3⟩⟩), (⟨"n", by decide⟩, ⟨"7", ⟨5⟩⟩)]
  lastVersion := none

/-- The document alone, of another version. -/
def aloneStart : StartMap where
  docs := .ofList [(.a, ⟨"x", ⟨9⟩⟩)]
  lastVersion := some 40

/-- A client who edits the document and one who counts, turn and turn about. -/
def alternating : List (Nat × Command) :=
  [(0, .update .a "y" .none), (1, .increment ⟨"n", by decide⟩ 5), (0, .remove .a),
    (1, .getCounter ⟨"n", by decide⟩), (0, .get .a), (0, .create .a "z")]

/-- The same commands, all of the counting first. -/
def countingFirst : List (Nat × Command) :=
  alternating.filter (·.1 == 1) ++ alternating.filter (·.1 == 0)

/-- Whoever edits a document does not see the counting, nor when it happens. -/
theorem counting_unseen :
    (KeysDisjoint alternating ∧ SameClients alternating countingFirst ∧
      ∀ a ∈ alternating, a.2.Unconditional) ∧
    (Store.answersOf Slot.whole id (·.key == .a) (alternating.map (·.2))
        (Run.start (Store.ofStart besideStart)) =
      Store.answersOf Slot.whole id (·.key == .a) [.update .a "y" .none, .remove .a, .get .a, .create .a "z"]
        (Run.start (Store.ofStart aloneStart))) ∧
    (∀ i, Store.answersOf Slot.whole Prod.snd (·.1 == i) alternating
        (Run.start (Store.ofStart besideStart)) =
      Store.answersOf Slot.whole Prod.snd (·.1 == i) countingFirst
        (Run.start (Store.ofStart besideStart))) := by
  have hdisjoint : KeysDisjoint alternating := by decide
  have hfree : ∀ a ∈ alternating, a.2.Unconditional := by decide
  have hclients : SameClients alternating countingFirst := by
    rintro (_ | _ | i) <;> rfl
  have hfree' : ∀ c ∈ alternating.map (·.2), c.key = Key.a → c.Unconditional := by decide
  refine ⟨⟨hdisjoint, hclients, hfree⟩, ?_, ?_⟩
  · exact ((keys_separate Slot.whole Slot.lawful_whole).1 .a _ _ _ _ (by decide) hfree' (by decide)).1
  · exact ((keys_separate Slot.whole Slot.lawful_whole).2 _ _ _ _ (fun _ => rfl) hfree hdisjoint
      hclients).1

end CasStore
