import CasStore.Proofs.Clients
import CasStore.Proofs.CounterTexts
import Mathlib.Data.List.Forall2

/-!
# Two backends, one store

A store in memory and a bucket of a server, both started empty, are given the same commands.  As long as
all numbers are short they answer alike, and after every command the bucket shows what the store does.

    contents are read as counters alike                              (Script.read_eq)
    a command comes to the same in memory and by its script          (Store.agrees_of_isExact)
    whole runs agree, turn by turn                                   (backends_agree)
-/

namespace CasStore

variable {σ : Type}

/-! ## Algorithm -/

/-- The errors are of one kind, with one message, and know the same of what differed. -/
structure Fault.Alike (e f : Fault) : Prop where
  kind : e.kindName = f.kindName
  message : e.message = f.message
  particulars : e.particulars = f.particulars

/-- The answers are one value, or errors alike; nothing has been raised. -/
def Alike : Except Fault LooseResult → Except Fault LooseResult → Prop
  | .ok (.inl (.ok x)), .ok (.inl (.ok y)) => x = y
  | .ok (.inl (.error e)), .ok (.inl (.error f)) => e.Alike f
  | _, _ => False

/-- A content that is read as a counter has no more digits than can be read. -/
def Readable (content : String) : Prop :=
  ∀ parts ∈ Counter.parts? content.toList, parts.2.length ≤ Numeral.maxDigits

instance (content : String) : Decidable (Readable content) :=
  inferInstanceAs (Decidable (∀ parts ∈ _, _))

/-- All numbers that a command meets where `v` is shown are short: versions demanded, differences,
counters and sums below `2 ^ 53`, and counter contents of digits that can be read. -/
def Command.IsExact (v : View) : Command → Prop
  | .get _ | .create _ _ | .remove _ => True
  | .update _ _ w => w.number.natAbs < 2 ^ Rounded.precision
  | .getCounter k => ∀ d ∈ v.doc? k, Readable d.content
  | .increment k delta => delta.natAbs < 2 ^ Rounded.precision ∧
      ∀ d ∈ v.doc? k, Readable d.content ∧ ∀ i ∈ (Counter.read d.content).toOption,
        i.natAbs < 2 ^ Rounded.precision ∧ (i + delta).natAbs < 2 ^ Rounded.precision

instance (v : View) : (c : Command) → Decidable (c.IsExact v)
  | .get _ | .create _ _ | .remove _ => inferInstanceAs (Decidable True)
  | .update _ _ _ => inferInstanceAs (Decidable (_ < _))
  | .getCounter _ => inferInstanceAs (Decidable (∀ d ∈ _, _))
  | .increment _ _ => inferInstanceAs (Decidable (_ ∧ ∀ d ∈ _, _ ∧ ∀ i ∈ _, _ ∧ _))

/-- A turn on a store in memory and one on a bucket: one command, answered alike, and afterwards the
bucket shows what the store does. -/
structure TurnsAgree (slot : Slot σ Store) (bucket : String) (t : Turn σ) (u : Turn Site) : Prop where
  command : u.command = t.command
  answer : Alike t.answer u.answer
  shows : u.after.world.server.Shows bucket (slot.get t.after.world).view

namespace Store

/-- A command comes to the same in memory and, as its client sees it, on a bucket that shows as much. -/
structure Agrees (s : Store) (c : Command) : Prop where
  answer : Alike (s.answered c) ((Delivery.reply (Script.effect s.view c).1).outcome c)
  view : (s.afterCommand c).view = (Script.effect s.view c).2

end Store

/-! ## Lemmas -/

theorem Fault.Alike.refl (e : Fault) : e.Alike e := ⟨rfl, rfl, rfl⟩

/-- What is added to the context of an error is not compared. -/
theorem Fault.alike_within (e : Fault) (entries : Fields) : e.Alike (e.within entries) := by
  cases e with
  | foreign kind payload serial => exact .refl _
  | store d => exact ⟨rfl, rfl, rfl⟩

/-- Keys are not empty, so a client knows which document is absent. -/
theorem Command.absent_subject (c : Command) :
    c.subject.absent = .notFound c.key.value (some c.tag) := by
  unfold Subject.absent Subject.keyText subject
  simp only [if_neg c.key.ne_empty]

/-! ### Short numbers -/

theorem Rounded.lt_of_short {i : Int} (h : i.natAbs < 2 ^ precision) : i.natAbs < 10 ^ 20 := by
  have : 2 ^ precision ≤ 10 ^ 20 := by decide
  omega

theorem Command.obstacle?_of_isExact {v : View} {c : Command} (h : c.IsExact v) : c.obstacle? = none := by
  have hwrite : ∀ i : Int, i.natAbs < 2 ^ Rounded.precision → Numeral.write i = .ok (Numeral.text i) :=
    fun i hi => Numeral.write_eq_text (Rounded.lt_of_short hi)
  cases c with
  | get | create | remove | getCounter => rfl
  | update k content w =>
    simp only [obstacle?, Request.obstacle?, Request.arguments, List.findSome?_cons, List.findSome?_nil,
      hwrite w.number h]
  | increment k delta =>
    simp only [obstacle?, Request.obstacle?, Request.arguments, List.findSome?_cons, List.findSome?_nil,
      hwrite delta h.1]

namespace Script

/-- Scripts take versions for different as a store in memory does, if the stored one is short. -/
theorem conflicts_iff {d : Document} {w : Version} (hd : d.version.number.natAbs < 2 ^ Rounded.precision) :
    conflicts d w ↔ (w.isSet && w != d.version) = true := by
  rw [Bool.and_eq_true, bne_iff_ne]
  constructor
  · rintro ⟨hset, hne⟩
    refine ⟨bne_iff_ne.2 fun h => hset ?_, fun h => hne (by rw [h])⟩
    rw [h, Rounded.ofInt_eq_finite (by decide)]
  · rintro ⟨hset, hne⟩
    exact Decidable.byContradiction fun h => hne (version_eq_of_not_conflicts hd h hset).symm

/-- A content that can be read is a counter where its script takes it for one, with the same value. -/
theorem read_eq {content : String} (h : Readable content) :
    Counter.read content =
      if counterPattern.accepts (octets content) then .ok (wholeNumber (octets content))
      else .error .notCounter := by
  have haccepts := accepts_octets content
  cases hparts : Counter.parts? content.toList with
  | none =>
    rw [hparts, Option.isSome_none] at haccepts
    rw [haccepts, if_neg Bool.false_ne_true]
    exact Counter.read_eq_notCounter_iff.2 hparts
  | some parts =>
    obtain ⟨negative, ds⟩ := parts
    have hshort : ds.length ≤ Numeral.maxDigits := h (negative, ds) hparts
    rw [hparts, Option.isSome_some] at haccepts
    rw [haccepts, if_pos rfl, wholeNumber_octets hparts]
    simp only [Counter.read, hparts, if_pos hshort]

end Script

/-! ### One command -/

namespace Store

variable {s : Store} {c : Command} {reply : Value} {v : View}

theorem find?_docs (s : Store) (k : Key) : s.docs.find? k = s.view.doc? k := rfl

theorem contains_docs (s : Store) (k : Key) : s.docs.contains k = (s.view.doc? k).isSome := rfl

/-- A command that is carried out agrees with an effect whose reply says its answer. -/
theorem agrees_of_ok {a : Answer} {s' : Store} (h : s.apply c = .ok (a, s'))
    (heffect : Script.effect s.view c = (reply, s'.view))
    (houtcome : (Delivery.reply reply).outcome c = .ok (.inl (.ok a.toValue))) : s.Agrees c := by
  refine ⟨?_, ?_⟩
  · rw [heffect, houtcome, answered, h]
    exact rfl
  · rw [heffect, afterCommand, h]

/-- A command that is refused agrees with an effect that changes nothing and whose reply says why. -/
theorem agrees_of_error {r : Refusal} {e : Fault} (h : s.apply c = .error r) (hr : r.isRaised = false)
    (heffect : Script.effect s.view c = (reply, s.view))
    (houtcome : (Delivery.reply reply).outcome c = .ok (.inl (.error e)))
    (he : (r.fault c).Alike e) : s.Agrees c := by
  refine ⟨?_, ?_⟩
  · rw [heffect, houtcome, answered, h]
    simp only [hr, Bool.false_eq_true, if_false]
    exact he
  · rw [heffect, afterCommand, h]

/-- Where there is no document the server replies with null. -/
theorem agrees_of_absent (h : s.apply c = .error .absent)
    (heffect : Script.effect s.view c = (.null, s.view)) : s.Agrees c :=
  agrees_of_error h rfl heffect rfl (by rw [Command.absent_subject]; exact .refl _)

/-- A write that is carried out gives the next version. -/
theorem lastVersion_of_write {a : Answer} {k : Key} {content : String}
    (h : s.apply c = .ok (a, (s.write k content).2)) :
    (s.afterCommand c).lastVersion = s.view.last + 1 := by
  rw [afterCommand, h]
  rfl

/-- Content is written in memory as by a script; the reply to that is the version it was given. -/
theorem agrees_of_write {k : Key} {content : String}
    (hlast : (s.afterCommand c).lastVersion.natAbs < 2 ^ Rounded.precision)
    (h : s.apply c = .ok (.document (s.write k content).1, (s.write k content).2))
    (heffect : Script.effect s.view c = Script.writing s.view k content)
    (houtcome : ∀ i, (Delivery.reply (Script.written i)).outcome c =
      .ok (.inl (.ok (.document (.text content) ⟨i⟩)))) : s.Agrees c := by
  rw [lastVersion_of_write h] at hlast
  rw [Script.writing, Script.stamped_eq_next (Nat.le_of_lt hlast), ← view_write] at heffect
  exact agrees_of_ok h heffect (houtcome _)

/-- A counter is written in memory as by a script. -/
theorem agrees_of_writeCounter {k : Key} {i delta : Int} (hi : i.natAbs < 2 ^ Rounded.precision)
    (hlast : (s.afterCommand (.increment k delta)).lastVersion.natAbs < 2 ^ Rounded.precision)
    (h : s.apply (.increment k delta) = s.writeCounter k i)
    (heffect : Script.effect s.view (.increment k delta) =
      Script.writingNumber s.view k (.finite i)) : s.Agrees (.increment k delta) := by
  have hshort := Rounded.lt_of_short hi
  rw [writeCounter, Numeral.write_eq_text hshort] at h
  rw [lastVersion_of_write h] at hlast
  rw [Script.writingNumber, Rounded.toWord_finite_of_le (Nat.le_of_lt hi),
    Script.stamped_eq_next (Nat.le_of_lt hlast), ← view_write] at heffect
  exact agrees_of_ok h heffect (Delivery.outcome_increased k delta hshort)

section

variable {k : Key}

theorem agrees_get (hd : ∀ d, s.view.doc? k = some d → d.version.number.natAbs < 2 ^ Rounded.precision) :
    s.Agrees (.get k) := by
  cases hfind : s.view.doc? k with
  | none =>
    refine agrees_of_absent ?_ ?_
    · simp only [apply, find?_docs, hfind]
    · simp only [Script.effect, hfind]
  | some d =>
    have heffect : Script.effect s.view (.get k) =
        (.list [.text d.content, .int d.version.number], s.view) := by
      simp only [Script.effect, hfind, Rounded.word_eq_of_le (Nat.le_of_lt (hd d hfind))]
    refine agrees_of_ok (a := .document d) ?_ heffect (Delivery.outcome_document ..)
    simp only [apply, find?_docs, hfind]

theorem agrees_create {content : String}
    (hlast : (s.afterCommand (.create k content)).lastVersion.natAbs < 2 ^ Rounded.precision) :
    s.Agrees (.create k content) := by
  cases hfind : s.view.doc? k with
  | none =>
    refine agrees_of_write (k := k) hlast ?_ ?_ (Delivery.outcome_created k content)
    · simp only [apply, contains_docs, hfind, Option.isSome_none, Bool.false_eq_true, if_false]
    · simp only [Script.effect, hfind]
  | some d =>
    have heffect : Script.effect s.view (.create k content) = (.list [.int 0], s.view) := by
      simp only [Script.effect, hfind]
    refine agrees_of_error (r := .present) ?_ rfl heffect (Delivery.outcome_present k content) (.refl _)
    simp only [apply, contains_docs, hfind, Option.isSome_some, if_true]

theorem agrees_update {content : String} {w : Version}
    (hd : ∀ d, s.view.doc? k = some d → d.version.number.natAbs < 2 ^ Rounded.precision)
    (hlast : (s.afterCommand (.update k content w)).lastVersion.natAbs < 2 ^ Rounded.precision) :
    s.Agrees (.update k content w) := by
  cases hfind : s.view.doc? k with
  | none =>
    refine agrees_of_absent ?_ ?_
    · simp only [apply, find?_docs, hfind]
    · simp only [Script.effect, hfind]
  | some d =>
    have hiff := Script.conflicts_iff (w := w) (hd d hfind)
    by_cases hstale : (w.isSet && w != d.version) = true
    · have heffect : Script.effect s.view (.update k content w) =
          (.list [.int 2, .int d.version.number], s.view) := by
        simp only [Script.effect, hfind, if_pos (hiff.2 hstale), Rounded.word_eq_of_le (Nat.le_of_lt (hd d hfind))]
      refine agrees_of_error (r := .stale w d.version) ?_ rfl heffect
        (Delivery.outcome_conflict k content w _) (.refl _)
      simp only [apply, find?_docs, hfind, hstale, if_true]
    · refine agrees_of_write (k := k) hlast ?_ ?_ (Delivery.outcome_updated k content w)
      · simp only [apply, find?_docs, hfind, if_neg hstale]
      · simp only [Script.effect, hfind, if_neg (mt hiff.1 hstale)]

theorem agrees_remove : s.Agrees (.remove k) := by
  cases hfind : s.view.doc? k with
  | none =>
    refine agrees_of_absent ?_ ?_
    · simp only [apply, contains_docs, hfind, Option.isSome_none, Bool.false_eq_true, if_false]
    · simp only [Script.effect, hfind]
  | some d =>
    have heffect : Script.effect s.view (.remove k) =
        (.int 1, view { s with docs := s.docs.erase k }) := by
      simp only [Script.effect, hfind, view_erase]
    refine agrees_of_ok (a := .removed) ?_ heffect rfl
    simp only [apply, contains_docs, hfind, Option.isSome_some, if_true]

theorem agrees_getCounter (hd : ∀ d, s.view.doc? k = some d → Readable d.content) :
    s.Agrees (.getCounter k) := by
  cases hfind : s.view.doc? k with
  | none =>
    refine agrees_of_absent ?_ ?_
    · simp only [apply, find?_docs, hfind]
    · simp only [Script.effect, hfind]
  | some d =>
    have heffect : Script.effect s.view (.getCounter k) = (.text d.content, s.view) := by
      simp only [Script.effect, hfind]
    have houtcome : (Delivery.reply (.text d.content)).outcome (.getCounter k) =
        Wire.settled (.getCounter k) (.text d.content) := rfl
    cases hread : Counter.read d.content with
    | ok i =>
      refine agrees_of_ok (a := .counter i) ?_ heffect ?_
      · simp only [apply, find?_docs, hfind, readCounter, hread]
      · simp only [houtcome, Wire.settled, Wire.result, Wire.counter, hread]
        rfl
    | error p =>
      cases p with
      | tooLong n =>
        have hscript := Script.read_eq (hd d hfind)
        rw [hread] at hscript
        split at hscript <;> cases hscript
      | notCounter =>
        refine agrees_of_error (r := .notCounter) (e := .notCounter k.value) ?_ rfl heffect ?_ (.refl _)
        · simp only [apply, find?_docs, hfind, readCounter, hread]
        · simp only [houtcome, Wire.settled, Wire.result, Wire.counter, hread]

theorem agrees_increment {delta : Int} (hexact : (Command.increment k delta).IsExact s.view)
    (hlast : (s.afterCommand (.increment k delta)).lastVersion.natAbs < 2 ^ Rounded.precision) :
    s.Agrees (.increment k delta) := by
  obtain ⟨hdelta, hcontent⟩ := hexact
  have hrounded := Rounded.ofInt_eq_finite hdelta
  cases hfind : s.view.doc? k with
  | none =>
    refine agrees_of_writeCounter hdelta hlast ?_ ?_
    · simp only [apply, find?_docs, hfind]
    · simp only [Script.effect, hfind, hrounded]
  | some d =>
    obtain ⟨hreadable, hvalues⟩ := hcontent d hfind
    have hread := Script.read_eq hreadable
    -- memory and script take the content for a counter both, or neither
    by_cases hcounter : Script.counterPattern.accepts (Script.octets d.content) = true
    · rw [if_pos hcounter] at hread
      obtain ⟨hvalue, hsum⟩ := hvalues _ (by rw [hread]; rfl)
      refine agrees_of_writeCounter hsum hlast ?_ ?_
      · simp only [apply, find?_docs, hfind, readCounter, hread]
      · simp only [Script.effect, hfind, if_pos hcounter, hrounded, Rounded.ofInt_eq_finite hvalue,
          Rounded.add, Rounded.ofInt_eq_finite hsum]
    · rw [if_neg hcounter] at hread
      have heffect : Script.effect s.view (.increment k delta) =
          (.list [.int 0, .text d.content], s.view) := by
        simp only [Script.effect, hfind, if_neg hcounter]
      refine agrees_of_error (r := .notCounter) ?_ rfl heffect (Delivery.outcome_notCounter ..)
        (Fault.alike_within ..)
      simp only [apply, find?_docs, hfind, readCounter, hread]

end

/-- Every exact command on a store of short versions agrees with its script. -/
theorem agrees_of_isExact (hcounted : s.view.Counted) (hexact : c.IsExact s.view)
    (hshort : s.lastVersion.natAbs < 2 ^ Rounded.precision)
    (hlast : (s.afterCommand c).lastVersion.natAbs < 2 ^ Rounded.precision) : s.Agrees c := by
  have hversion : ∀ k d, s.view.doc? k = some d → d.version.number.natAbs < 2 ^ Rounded.precision := by
    intro k d hd
    have := hcounted k d hd
    have : s.view.last = s.lastVersion := rfl
    omega
  cases c with
  | get k => exact agrees_get (hversion k)
  | create k content => exact agrees_create hlast
  | update k content w => exact agrees_update (hversion k) hlast
  | remove k => exact agrees_remove
  | getCounter k => exact agrees_getCounter hexact
  | increment k delta => exact agrees_increment hexact hlast

end Store

/-! ### Many commands -/

section

variable {slot : Slot σ Store} {bucket : String} {s : Run σ} {r : Run Site}

theorem turnsAgree (hslot : slot.Lawful) (hconn : r.world.Connected bucket)
    (hshows : r.world.server.Shows bucket (slot.get s.world).view)
    (hcounted : (slot.get s.world).view.Counted) {settings : Settings} {i : Nat} {c : Command}
    (hfree : c.IsFree) (hexact : c.IsExact (slot.get s.world).view)
    (hlast : (slot.get ((Store.backend slot).turn c s).after.world).lastVersion.natAbs <
      2 ^ Rounded.precision) :
    TurnsAgree slot bucket ((Store.backend slot).turn c s) ((Site.client settings i).backend.turn c r) := by
  have hsink := (Store.turn_isMove hslot c s).move.last_le
  have hnonneg := hshows.nonneg
  rw [Backend.before_turn] at hsink
  simp only [Store.view] at hsink hnonneg
  have hshort : (slot.get s.world).lastVersion.natAbs < 2 ^ Rounded.precision := by omega
  rw [Store.get_turn hslot] at hlast
  obtain ⟨hanswer, hview⟩ := Store.agrees_of_isExact hcounted hexact hshort hlast
  obtain ⟨houtcome, hafter, -⟩ :=
    @Site.turn_sent bucket r settings i c hconn _ hshows hfree (Command.obstacle?_of_isExact hexact)
  refine ⟨?_, ?_, ?_⟩
  · rw [Backend.command_turn, Backend.command_turn]
  · rw [Store.answer_turn, houtcome]
    exact hanswer
  · rw [Store.get_turn hslot, hview]
    exact hafter

/-- Runs from a store and a bucket that show the same agree in all their turns. -/
theorem turnsAgree_turns (hslot : slot.Lawful) {settings : Nat → Settings} {cs : List (Nat × Command)}
    (hconn : r.world.Connected bucket) (hshows : r.world.server.Shows bucket (slot.get s.world).view)
    (hcounted : (slot.get s.world).view.Counted) (hfree : ∀ ic ∈ cs, ic.2.IsFree)
    (hexact : ∀ t ∈ turns (Store.commands slot (cs.map (·.2))) s,
      t.command.IsExact (slot.get t.before.world).view)
    (hlast : (slot.get (afterTurns (Store.commands slot (cs.map (·.2))) s).world).lastVersion.natAbs <
      2 ^ Rounded.precision) :
    List.Forall₂ (TurnsAgree slot bucket) (turns (Store.commands slot (cs.map (·.2))) s)
      (turns (Site.commands settings cs) r) := by
  induction cs generalizing s r with
  | nil => exact .nil
  | cons ic cs ih =>
    obtain ⟨i, c⟩ := ic
    have hc : c.IsFree := hfree (i, c) (List.mem_cons_self ..)
    have hrest : ∀ ic ∈ cs, ic.2.IsFree := fun ic hic => hfree ic (List.mem_cons_of_mem _ hic)
    have hfirst := hexact ((Store.backend slot).turn c s) (List.mem_cons_self ..)
    rw [Backend.command_turn, Backend.before_turn] at hfirst
    have hmove := (Store.turn_isMove hslot c s).move
    -- versions only rise, so what bounds the last one bounds the one after this turn
    have hbound : (slot.get ((Store.backend slot).turn c s).after.world).lastVersion.natAbs <
        2 ^ Rounded.precision := by
      have hfinal := (Store.moves hslot (cs.map (·.2)) ((Store.backend slot).turn c s).after).last_le
      have hstep := hmove.last_le
      have hnonneg := hshows.nonneg
      rw [Backend.before_turn] at hstep
      simp only [Store.view] at hfinal hstep hnonneg
      have hrun : afterTurns (Store.commands slot (((i, c) :: cs).map (·.2))) s =
          afterTurns (Store.commands slot (cs.map (·.2))) ((Store.backend slot).turn c s).after := rfl
      rw [hrun] at hlast
      omega
    have hturn := @turnsAgree σ slot bucket s r hslot hconn hshows hcounted (settings i) i c hc hfirst hbound
    have hcounted' := hmove.keeps_counted
    rw [Backend.before_turn] at hcounted'
    refine .cons hturn (ih ?_ hturn.shows (hcounted' hshows.nonneg hcounted) hrest ?_ hlast)
    · exact @Site.connected_turn bucket r (settings i) i c hconn
    · exact fun t ht => hexact t (List.mem_cons_of_mem _ ht)

end

/-! ## Top theorems -/

/-- A store in memory and a bucket that are both empty are given the same commands, each by any client.
With fewer than `2 ^ 53` writes, and no numbers beyond that, every command is answered alike, and
afterwards the bucket shows the documents and the last version of the store, and nothing else. -/
theorem backends_agree (slot : Slot σ Store) (hslot : slot.Lawful) (settings : Nat → Settings)
    (bucket : String) (cs : List (Nat × Command)) (s : Run σ)
    (hs : slot.get s.world = Store.ofStart ⟨.empty, none⟩) (r : Run Site)
    (hconn : r.world.Connected bucket)
    (hempty : ∀ name, r.world.server.find? (bucket ++ ":" ++ name) = none)
    (hfree : ∀ ic ∈ cs, ic.2.IsFree)
    (hexact : ∀ t ∈ turns (Store.commands slot (cs.map (·.2))) s,
      t.command.IsExact (slot.get t.before.world).view)
    (hwrites : (turns (Store.commands slot (cs.map (·.2))) s).countP (fun t => t.Writes) <
      2 ^ Rounded.precision) :
    List.Forall₂ (TurnsAgree slot bucket) (turns (Store.commands slot (cs.map (·.2))) s)
      (turns (Site.commands settings cs) r) := by
  have hview : (slot.get s.world).view = ⟨fun _ => none, 0⟩ := by rw [hs]; rfl
  have hcounted : (slot.get s.world).view.Counted := by
    rw [hview]
    intro k d hd
    cases hd
  have hlast := (Store.moves hslot (cs.map (·.2)) s).last_eq
  simp only [hview] at hlast
  refine turnsAgree_turns hslot hconn ?_ hcounted hfree hexact ?_
  · rw [hview]
    exact Keyspace.shows_empty hempty
  · simp only [Store.view] at hlast
    omega

/-- Documents and counters: created, read, written as each other, refused and removed. -/
def mixture : List (Nat × Command) := [
  (0, .create .a " -7\n"), (1, .getCounter .a),
  (0, .increment .a 9), (1, .get .a),
  (0, .update .a "x" ⟨1⟩), (0, .update .a "x" ⟨2⟩),
  (1, .increment .a 1), (1, .getCounter .a),
  (0, .remove .a), (0, .remove .a),
  (1, .increment .a (-4)), (0, .create .a "y")]

/-- The backends agree on a run in which commands of every kind succeed, and some are refused. -/
theorem mixture_agrees :
    (∀ ic ∈ mixture, ic.2.IsFree) ∧
      (turns (Store.commands Slot.whole (mixture.map (·.2)))
          (Run.start (Store.ofStart ⟨.empty, none⟩))).map (fun t => decide t.Succeeds) =
        [true, true, true, true, false, true, false, false, true, false, true, false] ∧
      List.Forall₂ (TurnsAgree Slot.whole "default")
        (turns (Store.commands Slot.whole (mixture.map (·.2)))
          (Run.start (Store.ofStart ⟨.empty, none⟩)))
        (turns (Site.commands (fun _ => Settings.default) mixture)
          (Run.start (Site.opened "default" .empty))) := by
  have hfree : ∀ ic ∈ mixture, ic.2.IsFree := by decide
  refine ⟨hfree, by decide +kernel, ?_⟩
  exact backends_agree Slot.whole Slot.lawful_whole (fun _ => Settings.default) "default" mixture
    (Run.start (Store.ofStart ⟨.empty, none⟩)) rfl (Run.start (Site.opened "default" .empty))
    (fun _ => ⟨⟨0, "default"⟩, rfl, rfl⟩) (fun _ => rfl) hfree (by decide +kernel) (by decide +kernel)

end CasStore
