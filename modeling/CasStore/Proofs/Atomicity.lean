import CasStore.Proofs.Memory
import CasStore.Proofs.Numerals

/-!
# Commands are all or nothing

A store carries a command out in steps: it looks a document up, reads a number, adds to it, writes the
number, takes the next version, puts the document in place.  Each step that changes the store does so at
once, and what it has changed is not taken back if a later step refuses.  All the same a command that fails
has changed nothing, since no step refuses any more once a version has been taken.  One that succeeds has
changed one document at most, that of its own key.

    the steps of a command come to what the command comes to         (carryOut_eq)
    a number is written before a version is taken                    (increasing_eq)
    a command does all that it does to one document, or nothing      (commands_atomic)
-/

namespace CasStore

variable {σ : Type}

/-! ## Algorithm -/

namespace Store

/-- Steps of a store.  A step that refuses leaves what the steps before it have changed. -/
abbrev Steps (α : Type) := EStateM Refusal Store α

/-- The document under a key. -/
def found (k : Key) : Steps Document := do
  match (← get).docs.find? k with
  | none => throw .absent
  | some d => return d

/-- The number that a content holds. -/
def counted (content : String) : Steps Int :=
  match readCounter content with
  | .ok i => pure i
  | .error r => throw r

/-- The text of a number. -/
def written (i : Int) : Steps String :=
  match Numeral.write i with
  | .ok text => pure text
  | .error p => throw (.numeral p)

/-- Takes the next version, which is then the highest. -/
def takeVersion : Steps Version := do
  modify fun s => { s with lastVersion := s.lastVersion + 1 }
  return ⟨(← get).lastVersion⟩

/-- Puts a document in place. -/
def place (k : Key) (d : Document) : Steps Unit := modify fun s => { s with docs := s.docs.insert k d }

/-- Takes away what is under a key, whether that is a document or nothing. -/
def discard (k : Key) : Steps (Option Document) := do
  let d? := (← get).docs.find? k
  modify fun s => { s with docs := s.docs.erase k }
  return d?

/-- Writes a content with a version that is taken for it. -/
def writing (k : Key) (content : String) : Steps Answer := do
  let version ← takeVersion
  let d : Document := ⟨content, version⟩
  place k d
  return .document d

/-- Writes the text of a number. -/
def increasing (k : Key) (i : Int) : Steps Answer := do
  let text ← written i
  let _ ← writing k text
  return .counter i

/-- Carries out a command, step by step. -/
def carryOut : Command → Steps Answer
  | .get k => do
    let d ← found k
    return .document d
  | .create k content => do
    if (← get).docs.contains k then throw .present
    writing k content
  | .update k content version => do
    let d ← found k
    if version.isSet && version != d.version then throw (.stale version d.version)
    writing k content
  | .remove k => do
    match ← discard k with
    | none => throw .absent
    | some _ => return .removed
  | .getCounter k => do
    let d ← found k
    let i ← counted d.content
    return .counter i
  | .increment k delta => do
    match (← get).docs.find? k with
    | none => increasing k delta
    | some d =>
      let i ← counted d.content
      increasing k (i + delta)

/-- What a write of the command puts in place in the store, and what it answers. -/
inductive Puts (s : Store) : Command → Document → Answer → Prop
  | created {k content version} :
      Puts s (.create k content) ⟨content, version⟩ (.document ⟨content, version⟩)
  | updated {k content demanded version} :
      Puts s (.update k content demanded) ⟨content, version⟩ (.document ⟨content, version⟩)
  | begun {k delta text version} (h : s.docs.find? k = none) (htext : Numeral.write delta = .ok text) :
      Puts s (.increment k delta) ⟨text, version⟩ (.counter delta)
  | increased {k delta i d text version} (h : s.docs.find? k = some d) (hread : readCounter d.content = .ok i)
      (htext : Numeral.write (i + delta) = .ok text) :
      Puts s (.increment k delta) ⟨text, version⟩ (.counter (i + delta))

end Store

/-- A command on the store in `slot` has done all that it does to one document, or nothing. -/
structure Turn.Atomic (slot : Slot σ Store) (t : Turn σ) : Prop where
  /-- If it was refused, or raised an error, everything is as it was. -/
  failed : ¬ t.Succeeds → t.after = t.before
  /-- The documents under other keys are as they were. -/
  elsewhere : ∀ k, k ≠ t.command.key →
    (slot.get t.after.world).docs.find? k = (slot.get t.before.world).docs.find? k
  /-- Looking changes nothing. -/
  looked : t.command.isChange = false → slot.get t.after.world = slot.get t.before.world
  /-- A removal takes its document away, and no version is given out. -/
  removed : ∀ k, t.command = .remove k → t.Succeeds →
    (∃ d, (slot.get t.before.world).docs.find? k = some d) ∧
      (slot.get t.after.world).docs.find? k = none ∧
      (slot.get t.after.world).lastVersion = (slot.get t.before.world).lastVersion
  /-- A write puts one document in place.  Its version is the next one, which is the highest then, and who
  asks for it next gets just this document. -/
  wrote : t.command.isWrite = true → t.Succeeds →
    ∃ d a, (slot.get t.before.world).Puts t.command d a ∧ t.Answers a.toValue ∧
      d.version.number = (slot.get t.before.world).lastVersion + 1 ∧
      (slot.get t.after.world).lastVersion = d.version.number ∧
      (slot.get t.after.world).docs.find? t.command.key = some d ∧
      ((Store.backend slot).turn (.get t.command.key) t.after).Answers d.toValue

/-! ## Lemmas -/

/-! ### Steps -/

namespace Store

variable {s : Store} {k : Key} {d : Document}

theorem found_of_none (h : s.docs.find? k = none) : found k s = .error .absent s := by
  unfold found
  rw [get_bind, h]
  rfl

theorem found_of_some (h : s.docs.find? k = some d) : found k s = .ok d s := by
  unfold found
  rw [get_bind, h]
  rfl

theorem discard_eq (s : Store) (k : Key) :
    discard k s = .ok (s.docs.find? k) { s with docs := s.docs.erase k } := rfl

/-- A number is written before a version is taken for it. -/
theorem increasing_eq (s : Store) (k : Key) (i : Int) :
    increasing k i s =
      match s.writeCounter k i with
      | .ok (a, t) => .ok a t
      | .error r => .error r s := by
  unfold increasing writeCounter written
  cases Numeral.write i with
  | error p => rfl
  | ok text => rfl

/-- The steps of a command come to what the command comes to.  If one of them refuses, those before it
have changed nothing. -/
theorem carryOut_eq (c : Command) (s : Store) :
    carryOut c s =
      match s.apply c with
      | .ok (a, t) => .ok a t
      | .error r => .error r s := by
  cases c with
  | get k =>
    simp only [carryOut, apply]
    cases h : s.docs.find? k with
    | none => exact bind_of_error (found_of_none h)
    | some d => exact bind_of_ok (found_of_some h)
  | create k content =>
    simp only [carryOut, apply]
    rw [get_bind]
    cases s.docs.contains k <;> rfl
  | update k content version =>
    simp only [carryOut, apply]
    cases h : s.docs.find? k with
    | none => exact bind_of_error (found_of_none h)
    | some d =>
      rw [bind_of_ok (found_of_some h)]
      dsimp only
      cases version.isSet && version != d.version <;> rfl
  | remove k =>
    simp only [carryOut, apply]
    rw [bind_of_ok (discard_eq s k)]
    cases h : s.docs.find? k with
    | none =>
      -- the one step that comes before a refusal: it has taken nothing away
      have hk : s.docs.contains k = false := by unfold Table.contains; rw [h]; rfl
      rw [hk, Table.erase_of_find?_eq_none h]
      rfl
    | some d =>
      have hk : s.docs.contains k = true := by unfold Table.contains; rw [h]; rfl
      rw [hk]
      rfl
  | getCounter k =>
    simp only [carryOut, apply]
    cases h : s.docs.find? k with
    | none => exact bind_of_error (found_of_none h)
    | some d =>
      rw [bind_of_ok (found_of_some h)]
      dsimp only
      unfold counted
      cases readCounter d.content <;> rfl
  | increment k delta =>
    simp only [carryOut, apply]
    rw [get_bind]
    cases s.docs.find? k with
    | none => exact increasing_eq s k delta
    | some d =>
      dsimp only
      unfold counted
      cases readCounter d.content with
      | error r => rfl
      | ok i => exact increasing_eq s k (i + delta)

/-! ### Commands -/

theorem writeCounter_eq_ok {t : Store} {i : Int} {a : Answer} (h : s.writeCounter k i = .ok (a, t)) :
    ∃ text, Numeral.write i = .ok text ∧ a = .counter i ∧ t = (s.write k text).2 := by
  unfold writeCounter at h
  cases htext : Numeral.write i with
  | error p => rw [htext] at h; cases h
  | ok text => rw [htext] at h; cases h; exact ⟨text, rfl, rfl, rfl⟩

/-- A write that is carried out writes one content. -/
theorem puts_of_apply {t : Store} {c : Command} {a : Answer} (h : s.apply c = .ok (a, t))
    (hc : c.isWrite = true) :
    ∃ content, s.Puts c ⟨content, s.nextVersion⟩ a ∧ t = (s.write c.key content).2 := by
  cases c with
  | get | remove | getCounter => cases hc
  | create k content =>
    simp only [apply] at h
    split at h
    · cases h
    · cases h; exact ⟨content, .created, rfl⟩
  | update k content version =>
    simp only [apply] at h
    split at h
    · cases h
    · split at h
      · cases h
      · cases h; exact ⟨content, .updated, rfl⟩
  | increment k delta =>
    simp only [apply] at h
    split at h
    · next hk =>
      obtain ⟨text, htext, rfl, rfl⟩ := writeCounter_eq_ok h
      exact ⟨text, .begun hk htext, rfl⟩
    · next d hd =>
      split at h
      · cases h
      · next i hi =>
        obtain ⟨text, htext, rfl, rfl⟩ := writeCounter_eq_ok h
        exact ⟨text, .increased hd hi htext, rfl⟩

theorem apply_of_looking {t : Store} {c : Command} {a : Answer} (h : s.apply c = .ok (a, t))
    (hc : c.isChange = false) : t = s := by
  cases c with
  | create | update | remove | increment => cases hc
  | get k =>
    simp only [apply] at h
    split at h <;> cases h
    rfl
  | getCounter k =>
    simp only [apply] at h
    split at h
    · cases h
    · split at h <;> cases h
      rfl

variable {slot : Slot σ Store}

/-- A command that does not succeed leaves the whole run as it is. -/
theorem after_turn_of_failed {c : Command} {r : Run σ} (h : ¬ ((backend slot).turn c r).Succeeds) :
    ((backend slot).turn c r).after = r := by
  cases happly : (slot.get r.world).apply c with
  | error e =>
    simp only [Backend.turn, backend, perform, happly]
    cases e.isRaised <;> rfl
  | ok at' =>
    refine absurd ⟨at'.1.toValue, ?_⟩ h
    rw [Turn.Answers, answer_turn, answered, happly]

theorem exists_apply_of_succeeds {c : Command} {r : Run σ} (h : ((backend slot).turn c r).Succeeds) :
    ∃ a t, (slot.get r.world).apply c = .ok (a, t) ∧ ((backend slot).turn c r).Answers a.toValue := by
  obtain ⟨v, hv⟩ := h
  unfold Turn.Answers
  rw [Turn.Answers, answer_turn] at hv
  rw [answer_turn]
  unfold answered at hv ⊢
  cases happly : (slot.get r.world).apply c with
  | ok at' => exact ⟨at'.1, at'.2, rfl, rfl⟩
  | error e =>
    rw [happly] at hv
    dsimp only at hv
    split at hv <;> cases hv

/-- Who asks for a document gets what is there. -/
theorem answers_get {r : Run σ} (h : (slot.get r.world).docs.find? k = some d) :
    ((backend slot).turn (.get k) r).Answers d.toValue := by
  rw [Turn.Answers, answer_turn, answered]
  simp only [apply, h]
  rfl

end Store

/-! ## Top theorems -/

/-- Commands on a store in memory are all or nothing, whatever the store holds.  Step by step, a refusal
leaves the store as it was before the first step; and the whole command does all that it does to the
document of its key. -/
theorem commands_atomic (slot : Slot σ Store) (hslot : slot.Lawful) (c : Command) (s : Run σ) :
    (Store.carryOut c (slot.get s.world) =
      match (slot.get s.world).apply c with
      | .ok (a, store) => .ok a store
      | .error r => .error r (slot.get s.world)) ∧
    ((Store.backend slot).turn c s).Atomic slot := by
  have hmove := (Store.turn_isMove hslot c s).move
  have hget := Store.get_turn hslot c s
  unfold Store.afterCommand at hget
  simp only [Backend.command_turn, Backend.before_turn] at hmove
  refine ⟨Store.carryOut_eq c _, ?_⟩
  constructor <;> simp only [Backend.command_turn, Backend.before_turn]
  case failed => exact Store.after_turn_of_failed
  case elsewhere => exact fun k hk => hmove.doc?_of_ne hk
  case looked =>
    intro hc
    rw [hget]
    cases happly : (slot.get s.world).apply c with
    | error r => rfl
    | ok at' => exact Store.apply_of_looking happly hc
  case removed =>
    rintro k rfl hs
    obtain ⟨a, store, happly, -⟩ := Store.exists_apply_of_succeeds hs
    rw [hget, happly]
    simp only [Store.apply] at happly
    split at happly
    · next hk =>
      cases happly
      exact ⟨Store.isSome_of_contains hk, by rw [Table.find?_erase, if_pos rfl], rfl⟩
    · cases happly
  case wrote =>
    intro hc hs
    obtain ⟨a, store, happly, hanswer⟩ := Store.exists_apply_of_succeeds hs
    obtain ⟨content, hputs, rfl⟩ := Store.puts_of_apply happly hc
    rw [happly] at hget
    have hfound : (slot.get ((Store.backend slot).turn c s).after.world).docs.find? c.key =
        some ⟨content, (slot.get s.world).nextVersion⟩ := by
      rw [hget, Store.find?_write, if_pos rfl]
    have hlast : (slot.get ((Store.backend slot).turn c s).after.world).lastVersion =
        (slot.get s.world).lastVersion + 1 := by
      rw [hget, Store.lastVersion_write]
    exact ⟨_, a, hputs, hanswer, rfl, hlast, hfound, Store.answers_get hfound⟩

/-- A store without documents that has given seven versions out. -/
def sevenGone : Run Store := Run.start ⟨.empty, 7⟩

/-- The least number of too many digits. -/
def overlong : Int := (10 ^ Numeral.maxDigits : Nat)

/-- A counter that is to begin with too many digits raises an error, and leaves neither a document nor a
version behind: one that begins with 5 next has the version 8. -/
theorem overlong_leaves_nothing :
    (Slot.whole : Slot Store Store).Lawful ∧
    (∃ e, ((Store.backend Slot.whole).turn (.increment .a overlong) sevenGone).answer = .error e) ∧
    ((Store.backend Slot.whole).turn (.increment .a overlong) sevenGone).after = sevenGone ∧
    ∃ d, ((Store.backend Slot.whole).turn (.increment .a 5) sevenGone).after.world.docs.find? .a = some d ∧
      d.version.number = 8 := by
  have hlawful : (Slot.whole : Slot Store Store).Lawful := Slot.lawful_whole
  have hwrite : Numeral.write overlong = .error .tooLarge :=
    Numeral.write_eq_tooLarge (Nat.le_of_eq (Int.natAbs_natCast _).symm)
  have hrefused : sevenGone.world.apply (.increment .a overlong) = .error (.numeral .tooLarge) := by
    show sevenGone.world.writeCounter .a overlong = _
    rw [Store.writeCounter, hwrite]
  have hraised : ((Store.backend Slot.whole).turn (.increment .a overlong) sevenGone).answer =
      .error (Refusal.fault (.increment .a overlong) (.numeral .tooLarge)) := by
    rw [Store.answer_turn, Store.answered, show Slot.whole.get sevenGone.world = sevenGone.world from rfl,
      hrefused]
    rfl
  have hfailed : ¬ ((Store.backend Slot.whole).turn (.increment .a overlong) sevenGone).Succeeds := by
    rintro ⟨v, hv⟩
    rw [Turn.Answers, hraised] at hv
    cases hv
  have hafter := (commands_atomic Slot.whole hlawful (.increment .a overlong) sevenGone).2.failed hfailed
  rw [Backend.before_turn] at hafter
  obtain ⟨d, -, -, -, hnumber, -, hd, -⟩ :=
    (commands_atomic Slot.whole hlawful (.increment .a 5) sevenGone).2.wrote
      (by rw [Backend.command_turn]; rfl) (by decide +kernel)
  rw [Backend.command_turn] at hd
  rw [Backend.before_turn] at hnumber
  exact ⟨hlawful, ⟨_, hraised⟩, hafter, d, hd, hnumber⟩

end CasStore
