import CasStore.Network
import CasStore.Proofs.Bucket
import CasStore.Proofs.Numerals

/-!
# Clients of one server

Any number of clients, each with a link of its own, have one server carry out their commands.  What a
client makes of a delivery depends on the delivery alone; so a command comes to what its script makes of
the bucket, and as long as versions have at most 53 bits it is a move of what the bucket shows.

    a delivery is awaited to its outcome                             (await_eq)
    a command that can be sent comes to its script's effect          (turn_sent)
    a command is a move, and changes nothing when it fails           (turn_isMove)
-/

namespace CasStore

variable {σ : Type}

/-! ## Algorithm -/

/-- Where clients work: a link for each client, and the server's key space. -/
structure Site where
  links : Nat → Link
  server : Keyspace

namespace Site

/-- The key space of a site. -/
def serverSlot : Slot Site Keyspace := ⟨Site.server, fun ks w => { w with server := ks }⟩

/-- The link of a client. -/
def linkSlot (i : Nat) : Slot Site Link :=
  ⟨fun w => w.links i, fun l w => { w with links := fun j => if j = i then l else w.links j }⟩

/-- The backend of a client. -/
def client (settings : Settings) (i : Nat) : Network Site :=
  ⟨settings, Keyspace.driver serverSlot, linkSlot i⟩

/-- Every client has a live session of the bucket. -/
def Connected (w : Site) (bucket : String) : Prop :=
  ∀ i, ∃ s, (w.links i).live = some s ∧ s.bucket = bucket

/-- The site on which every client has opened one session of the bucket. -/
def opened (bucket : String) (ks : Keyspace) : Site := ⟨fun _ => Link.idle.connect bucket, ks⟩

end Site

/-- What a command is about. -/
def Command.subject (c : Command) : Subject := ⟨some c.key.value, some c.tag⟩

/-- The end of a wait that an error is to answer: without one, the wait is given up. -/
def Wire.failed : Except Fault Fault → Except Fault LooseResult
  | .ok f => .ok (.inl (.error f))
  | .error _ => .error .abandoned

/-- The end of the wait for a driver that has reported a value and finished. -/
def Wire.settled (c : Command) (v : Value) : Except Fault LooseResult :=
  match Wire.result v c with
  | .ok r => .ok (.inl r)
  | .error e => if e.isOrdinary then Wire.failed (c.subject.unreadable e) else .error e

/-- What a client makes of a delivery. -/
def Delivery.outcome (c : Command) : Delivery → Except Fault LooseResult
  | .reply .null => .ok (.inl (.error c.subject.absent))
  | .reply v => Wire.settled c v
  | .raised e => Wire.failed (c.subject.failure e)
  | .cancelled => .ok (.inl (.error c.subject.cancellation))
  | .endless => .error .abandoned

/-- Why a command cannot be sent. -/
def Command.obstacle? (c : Command) : Option Numeral.Problem := (Request.mk "" "" c).obstacle?

/-- Every stored version marks a write that has been made. -/
def View.Counted (v : View) : Prop :=
  ∀ k d, v.doc? k = some d → 0 < d.version.number ∧ d.version.number ≤ v.last

/-! ## Lemmas -/

/-! ### Deliveries -/

/-- The end of a wait that an answer ends. -/
def ended (x : Except Fault LooseResult) (s : Run σ) : Reply (Run σ) LooseResult :=
  match x with
  | .ok r => .ok r s
  | .error e => .error e s

/-- A wait comes to the answer of the completion, if it has one. -/
theorem await_of_told {d : Delivery} {t : Subject} {convert : Converter σ} {c : Completion} {s u : Run σ}
    (h : d.tell t convert s = .ok c u) :
    d.await t convert s = ended (c.answer.elim (.error .abandoned) .ok) u := by
  have hrecovered : (d.tell t convert).recover (fun _ => return .empty) s = .ok c u := by
    simp only [Call.recover, h]
  rw [Delivery.await, bind_of_ok hrecovered]
  cases c.answer <;> rfl

/-- Where telling the completion raises an error the wait is given up; an interrupt is passed on. -/
theorem await_of_raised {d : Delivery} {t : Subject} {convert : Converter σ} {e : Fault} {s u : Run σ}
    (h : d.tell t convert s = .error e u) :
    d.await t convert s = .error (if e.isOrdinary then .abandoned else e) u := by
  cases ho : e.isOrdinary with
  | true =>
    have hrecovered : (d.tell t convert).recover (fun _ => return .empty) s = .ok .empty u := by
      simp only [Call.recover, h, ho, if_true]
      rfl
    rw [Delivery.await, bind_of_ok hrecovered]
    rfl
  | false =>
    have hraised : (d.tell t convert).recover (fun _ => return .empty) s = .error e u := by
      simp only [Call.recover, h, ho, Bool.false_eq_true, if_false]
    rw [Delivery.await, bind_of_error hraised]
    rfl

/-- What a driver's end makes of the value that has been kept. -/
theorem report_finished (c : Command) (v : Value) (w : σ) :
    (∃ r, Wire.settled c v = .ok r ∧
      Completion.report ⟨some v, none, []⟩ c.subject (Network.converter c) .onLoop .finished w =
        .ok ⟨some v, some r, []⟩ w) ∨
    ∃ e, Wire.settled c v = .error (if e.isOrdinary then .abandoned else e) ∧
      Completion.report ⟨some v, none, []⟩ c.subject (Network.converter c) .onLoop .finished w =
        .error e w := by
  simp only [Completion.report, Completion.isDone, Option.isSome_none, Bool.false_eq_true, if_false,
    Completion.conclude, Network.converter, Wire.settled]
  cases Wire.result v c with
  | ok r => exact .inl ⟨_, rfl, rfl⟩
  | error e =>
    cases ho : e.isOrdinary with
    | false =>
      refine .inr ⟨e, ?_, ?_⟩
      · simp only [ho, Bool.false_eq_true, if_false]
      · simp only [ho, Bool.false_eq_true, if_false]
    | true =>
      simp only [ho, if_true]
      cases he : e.hasMessage with
      | true =>
        rw [c.subject.unreadable_of_hasMessage he]
        exact .inl ⟨_, rfl, rfl⟩
      | false =>
        rw [c.subject.unreadable_eq_error he]
        exact .inr ⟨_, rfl, rfl⟩

/-- A value other than null is kept, and converted when the driver has finished. -/
theorem await_kept (c : Command) {v : Value} (hv : Completion.empty.keep v = ⟨some v, none, []⟩)
    (s : Run σ) :
    (Delivery.reply v).await c.subject (Network.converter c) s = ended (Wire.settled c v) s := by
  have hvalue : Completion.report .empty c.subject (Network.converter c) .onLoop (.value v) s.world =
      .ok ⟨some v, none, []⟩ s.world := by
    rw [← hv]
    rfl
  have htell : (Delivery.reply v).tell c.subject (Network.converter c) s =
      Run.onWorld (Completion.empty.reportAll c.subject (Network.converter c) .onLoop
        [.value v, .finished]) s := rfl
  rcases report_finished c v s.world with ⟨r, hr, hreport⟩ | ⟨e, he, hreport⟩
  · have htold : (Delivery.reply v).tell c.subject (Network.converter c) s =
        .ok ⟨some v, some r, []⟩ s := by
      simp only [htell, Run.onWorld, Completion.reportAll, hvalue, hreport]
    rw [await_of_told htold, hr]
    rfl
  · have hraised : (Delivery.reply v).tell c.subject (Network.converter c) s = .error e s := by
      simp only [htell, Run.onWorld, Completion.reportAll, hvalue, hreport]
    rw [await_of_raised hraised, he]
    rfl

/-- A delivery is awaited to its outcome, and the world is not touched. -/
theorem await_eq (d : Delivery) (c : Command) (s : Run σ) :
    ∃ s' : Run σ, s'.world = s.world ∧
      d.await c.subject (Network.converter c) s = ended (d.outcome c) s' := by
  cases d with
  | raised e =>
    cases he : e.hasMessage with
    | true =>
      obtain ⟨f, hf⟩ := c.subject.exists_failure he
      let fields := c.subject.entries ++ [("error", .text e.message)]
      let noted : Run σ := { s with journal := s.journal.note "bridge.driver_error" .debug fields }
      have htold : (Delivery.raised e).tell c.subject (Network.converter c) s =
          .ok ⟨none, some (.inl (.error f)), []⟩ noted := by
        have htell : (Delivery.raised e).tell c.subject (Network.converter c) s = Run.onWorld
            (Completion.empty.reportAll c.subject (Network.converter c) .onLoop [.failed e]) noted := by
          rw [Delivery.tell, Fault.written_of_hasMessage he]
          rfl
        simp only [htell, Run.onWorld, Completion.reportAll, Completion.report, hf]
        rfl
      refine ⟨noted, rfl, ?_⟩
      rw [await_of_told htold, Delivery.outcome, hf]
      rfl
    | false =>
      have hraised : (Delivery.raised e).tell c.subject (Network.converter c) s =
          .error (.ofNumeral .tooLarge) s := by
        rw [Delivery.tell, Fault.written_of_not_hasMessage he]
        rfl
      refine ⟨s, rfl, ?_⟩
      rw [await_of_raised hraised, Delivery.outcome, c.subject.failure_eq_error he]
      rfl
  | cancelled => exact ⟨s, rfl, rfl⟩
  | endless => exact ⟨s, rfl, rfl⟩
  | reply v =>
    refine ⟨s, rfl, ?_⟩
    cases v with
    | null => rfl
    | _ => exact await_kept c rfl s

theorem Network.perform_live {n : Network σ} (c : Command) {l : Link} {session : Session} {s t : Run σ}
    (hlink : n.link s = .ok l t) (hlive : l.live = some session) :
    n.perform c s = (do (← n.send (session.request c)).await c.subject (Network.converter c)) t := by
  unfold Network.perform
  rw [bind_of_ok hlink]
  simp only [hlive]
  rfl

/-! ### Turns of clients -/

namespace Site

variable {bucket : String} {s : Run Site} {settings : Settings} {i : Nat} {c : Command}

/-- A turn is the server's answer to a request of the client's session, and what the client makes of
the delivery. -/
theorem turn_live {session : Session} (hlive : (s.world.links i).live = some session) :
    ((client settings i).backend.turn c s).answer =
        (s.world.server.answer (session.request c)).1.outcome c ∧
      ((client settings i).backend.turn c s).after.world =
        { s.world with server := (s.world.server.answer (session.request c)).2 } := by
  let answered := s.world.server.answer (session.request c)
  let sent : Run Site := { s with world := { s.world with server := answered.2 } }
  obtain ⟨s', hworld, hawait⟩ := await_eq answered.1 c sent
  have hperform : (client settings i).perform c s = ended (answered.1.outcome c) s' := by
    rw [← hawait, Network.perform_live c rfl hlive]
    rfl
  unfold Backend.turn Network.backend
  simp only [hperform]
  cases answered.1.outcome c with
  | ok r => exact ⟨rfl, hworld⟩
  | error e => exact ⟨rfl, hworld⟩

theorem turn_eq (h : s.world.Connected bucket) :
    ∃ session : Session, session.bucket = bucket ∧
      ((client settings i).backend.turn c s).answer =
        (s.world.server.answer (session.request c)).1.outcome c ∧
      ((client settings i).backend.turn c s).after.world =
        { s.world with server := (s.world.server.answer (session.request c)).2 } := by
  obtain ⟨session, hlive, hbucket⟩ := h i
  exact ⟨session, hbucket, turn_live hlive⟩

theorem connected_turn (h : s.world.Connected bucket) :
    ((client settings i).backend.turn c s).after.world.Connected bucket := by
  obtain ⟨session, -, -, hworld⟩ := @turn_eq bucket s settings i c h
  rw [hworld]
  exact h

theorem answer_of_ok {r : Request} {ks ks' : Keyspace} {v : Value} (ho : r.obstacle? = none)
    (h : Script.run r ks = .ok v ks') : ks.answer r = (.reply v, ks') := by
  simp only [Keyspace.answer, ho, h]

theorem obstacle?_request (session : Session) (c : Command) :
    (session.request c).obstacle? = c.obstacle? := by
  cases c <;> rfl

/-- A number that cannot be sent is an error of the driver, and nothing changes. -/
theorem turn_unsent (h : s.world.Connected bucket) {p : Numeral.Problem} (hp : c.obstacle? = some p) :
    ((client settings i).backend.turn c s).answer = Wire.failed (c.subject.failure (.ofNumeral p)) ∧
      ((client settings i).backend.turn c s).after.world = s.world := by
  obtain ⟨session, -, hanswer, hworld⟩ := @turn_eq bucket s settings i c h
  have hraised : s.world.server.answer (session.request c) =
      (.raised (.ofNumeral p), s.world.server) := by
    unfold Keyspace.answer
    rw [obstacle?_request, hp]
  rw [hanswer, hworld, hraised]
  exact ⟨rfl, rfl⟩

/-- Every other command comes to the effect of its script. -/
theorem turn_sent (h : s.world.Connected bucket) {v : View} (hv : s.world.server.Shows bucket v)
    (hc : c.IsFree) (ho : c.obstacle? = none) :
    ((client settings i).backend.turn c s).answer =
        (Delivery.reply (Script.effect v c).1).outcome c ∧
      ((client settings i).backend.turn c s).after.world.server.Shows bucket (Script.effect v c).2 ∧
      ((Script.effect v c).2 = v →
        ((client settings i).backend.turn c s).after.world = s.world) := by
  obtain ⟨session, rfl, hanswer, hworld⟩ := @turn_eq bucket s settings i c h
  obtain ⟨ks, hrun, hshows, hsame⟩ := Script.run_request hv hc
  have hreplied := answer_of_ok ((obstacle?_request session c).trans ho) hrun
  rw [hanswer, hworld, hreplied]
  exact ⟨rfl, hshows, fun heq => by rw [hsame heq]⟩

end Site

/-! ### Effects are moves -/

namespace Script

variable {v : View}

theorem stamped_eq_next (h : (v.last + 1).natAbs ≤ 2 ^ Rounded.precision) (content : String) :
    stamped v content = v.next content := by
  unfold stamped View.next
  rw [Rounded.word_eq_of_le h]

/-- Documents that scripts do not take for different have the version demanded. -/
theorem version_eq_of_not_conflicts {d : Document} {w : Version}
    (hd : d.version.number.natAbs < 2 ^ Rounded.precision) (h : ¬ conflicts d w) (hw : w.isSet = true) :
    d.version = w := by
  have hw0 : w.number ≠ 0 := bne_iff_ne.1 hw
  have hset : Rounded.ofInt w.number ≠ .finite 0 := fun heq =>
    hw0 (Rounded.eq_of_ofInt heq (by decide))
  have hsame : Rounded.ofInt d.version.number = Rounded.ofInt w.number :=
    Decidable.byContradiction fun hne => h ⟨hset, hne⟩
  rw [Rounded.ofInt_eq_finite hd] at hsame
  have hnumber : w.number = d.version.number := Rounded.eq_of_ofInt hsame.symm hd
  exact congrArg Version.mk hnumber.symm

theorem last_le_effect (v : View) (c : Command) : v.last ≤ (effect v c).2.last := by
  have hput : ∀ k d, v.last ≤ (v.put k d).last := fun _ _ => Int.le_of_lt (Int.lt_succ _)
  cases c with
  | get k | getCounter k | remove k =>
    simp only [effect]
    cases v.doc? k <;> exact Int.le_refl _
  | create k content =>
    simp only [effect]
    cases v.doc? k with
    | none => exact hput ..
    | some d => exact Int.le_refl _
  | update k content w =>
    simp only [effect]
    cases v.doc? k with
    | none => exact Int.le_refl _
    | some d =>
      simp only
      split
      · exact Int.le_refl _
      · exact hput ..
  | increment k delta =>
    simp only [effect]
    cases v.doc? k with
    | none => exact hput ..
    | some d =>
      simp only
      split
      · exact hput ..
      · exact Int.le_refl _

end Script

/-! ### Outcomes of replies -/

namespace Delivery

theorem equal_int (i j : Int) : (Value.int i).equal (.int j) = (i == j) := by
  simp only [Value.equal, Value.integer?]

theorem outcome_document (k : Key) (content : String) (i : Int) :
    (reply (.list [.text content, .int i])).outcome (.get k) =
      .ok (.inl (.ok (.document (.text content) ⟨i⟩))) := rfl

theorem outcome_created (k : Key) (content : String) (i : Int) :
    (reply (Script.written i)).outcome (.create k content) =
      .ok (.inl (.ok (.document (.text content) ⟨i⟩))) := by
  have hequal : (Value.int 1).equal (.int 0) = false := equal_int 1 0
  unfold Script.written outcome Wire.settled
  simp only [Wire.result, Wire.element, List.getElem?_cons_zero, bind, Except.bind, hequal,
    Bool.false_eq_true, if_false]
  rfl

theorem outcome_present (k : Key) (content : String) :
    (reply (.list [.int 0])).outcome (.create k content) =
      .ok (.inl (.error (.alreadyExists k.value))) := by
  have hequal : (Value.int 0).equal (.int 0) = true := equal_int 0 0
  unfold outcome Wire.settled
  simp only [Wire.result, Wire.element, List.getElem?_cons_zero, bind, Except.bind, hequal, if_true]
  rfl

theorem outcome_updated (k : Key) (content : String) (w : Version) (i : Int) :
    (reply (Script.written i)).outcome (.update k content w) =
      .ok (.inl (.ok (.document (.text content) ⟨i⟩))) := by
  have hequal : (Value.int 1).equal (.int 2) = false := equal_int 1 2
  unfold Script.written outcome Wire.settled
  simp only [Wire.result, Wire.element, List.getElem?_cons_zero, bind, Except.bind, hequal,
    Bool.false_eq_true, if_false]
  rfl

theorem outcome_conflict (k : Key) (content : String) (w : Version) (i : Int) :
    (reply (.list [.int 2, .int i])).outcome (.update k content w) =
      .ok (.inl (.error (.versionConflict k.value w ⟨i⟩))) := by
  have hequal : (Value.int 2).equal (.int 2) = true := equal_int 2 2
  unfold outcome Wire.settled
  simp only [Wire.result, Wire.element, List.getElem?_cons_zero, bind, Except.bind, hequal, if_true]
  rfl

theorem outcome_increased (k : Key) (delta : Int) {i : Int} (h : i.natAbs < 10 ^ 20) :
    (reply (.list [.int 1, .text (Numeral.text i)])).outcome (.increment k delta) =
      .ok (.inl (.ok (.int i))) := by
  have hequal : (Value.int 1).equal (.int 0) = false := equal_int 1 0
  have hread : Wire.integer (.text (Numeral.text i)) = .ok i := by
    show (Numeral.read (Numeral.text i)).mapError Fault.ofNumeral = .ok i
    rw [Numeral.read_text (Numeral.natDigits_length_le_maxDigits h)]
    rfl
  unfold outcome Wire.settled
  simp only [Wire.result, Wire.element, List.getElem?_cons_zero, List.getElem?_cons_succ, bind,
    Except.bind, hequal, Bool.false_eq_true, if_false, hread]
  rfl

theorem outcome_notCounter (k : Key) (delta : Int) (content : String) :
    (reply (.list [.int 0, .text content])).outcome (.increment k delta) =
      .ok (.inl (.error ((Fault.notCounter k.value).within
        [("command", .text (Command.increment k delta).tag)]))) := by
  have hequal : (Value.int 0).equal (.int 0) = true := equal_int 0 0
  unfold outcome Wire.settled
  simp only [Wire.result, Wire.element, List.getElem?_cons_zero, bind, Except.bind, hequal, if_true]
  rfl

/-- A reading of a counter succeeds with a number or fails. -/
theorem outcome_counter (k : Key) (content : String) :
    (∃ i, (reply (.text content)).outcome (.getCounter k) = .ok (.inl (.ok (.int i)))) ∨
      ∀ x, (reply (.text content)).outcome (.getCounter k) ≠ .ok (.inl (.ok x)) := by
  have houtcome : (reply (.text content)).outcome (.getCounter k) =
      Wire.settled (.getCounter k) (.text content) := rfl
  rw [houtcome]
  unfold Wire.settled
  simp only [Wire.result, Wire.counter]
  cases Counter.read content with
  | ok i => exact .inl ⟨i, rfl⟩
  | error p =>
    refine .inr fun x h => ?_
    cases p with
    | notCounter => cases h
    | tooLong n => cases h

end Delivery

theorem Rounded.natAbs_toWord_lt (x : Rounded) : x.toWord.natAbs < 10 ^ 20 := by
  have hl : leastWord = -((2 ^ 63 : Nat) : Int) := by decide
  have hp : (2 : Nat) ^ 63 < 10 ^ 20 := by decide
  cases x with
  | finite i =>
    simp only [toWord]
    split <;> omega
  | infinite negative => simp only [toWord]; omega
  | undefined => simp only [toWord]; omega

/-! ### Effects are moves -/

namespace Script

variable {v : View}

/-- As long as versions are short the effect of a script, as its client sees it, is a move. -/
theorem effect_move (c : Command) (hcounted : v.Counted) (h0 : 0 ≤ v.last)
    (hlast : (effect v c).2.last.natAbs ≤ 2 ^ Rounded.precision) :
    Move v c ((Delivery.reply (effect v c).1).outcome c) (effect v c).2 := by
  have hshort : ∀ k d, v.doc? k = some d → d.version.number.natAbs ≤ 2 ^ Rounded.precision := by
    intro k d hd
    have := hcounted k d hd
    have := last_le_effect v c
    omega
  have hnull : ∀ x, (Delivery.reply .null).outcome c ≠ .ok (.inl (.ok x)) := by
    intro x h
    cases h
  cases c with
  | get k =>
    simp only [effect] at hlast ⊢
    cases hd : v.doc? k with
    | none => exact .failed hnull
    | some d =>
      simp only
      rw [Delivery.outcome_document, Rounded.word_eq_of_le (hshort k d hd)]
      exact .read hd
  | create k content =>
    simp only [effect] at hlast ⊢
    cases hd : v.doc? k with
    | none =>
      simp only [hd, writing] at hlast ⊢
      rw [stamped_eq_next hlast, Delivery.outcome_created]
      exact .created hd
    | some d =>
      simp only
      rw [Delivery.outcome_present]
      exact .failed fun x h => by cases h
  | update k content w =>
    simp only [effect] at hlast ⊢
    cases hd : v.doc? k with
    | none => exact .failed hnull
    | some d =>
      by_cases hconf : conflicts d w
      · simp only [if_pos hconf]
        rw [Delivery.outcome_conflict]
        exact .failed fun x h => by cases h
      · simp only [hd, if_neg hconf, writing] at hlast ⊢
        rw [stamped_eq_next hlast, Delivery.outcome_updated]
        -- there is room for the next version, so the document's is shorter
        have hroom : (v.last + 1).natAbs ≤ 2 ^ Rounded.precision := hlast
        have hd' : d.version.number.natAbs < 2 ^ Rounded.precision := by
          have := hcounted k d hd
          omega
        exact .updated hd (version_eq_of_not_conflicts hd' hconf)
  | remove k =>
    simp only [effect] at hlast ⊢
    cases hd : v.doc? k with
    | none => exact .failed hnull
    | some d => exact .removed hd
  | getCounter k =>
    simp only [effect] at hlast ⊢
    cases hd : v.doc? k with
    | none => exact .failed hnull
    | some d =>
      rcases Delivery.outcome_counter k d.content with ⟨i, hi⟩ | hfail
      · simp only
        rw [hi]
        exact .counted
      · exact .failed hfail
  | increment k delta =>
    have hwriting : ∀ x : Rounded, (writingNumber v k x).2.last.natAbs ≤ 2 ^ Rounded.precision →
        Move v (.increment k delta)
          ((Delivery.reply (writingNumber v k x).1).outcome (.increment k delta))
          (writingNumber v k x).2 := by
      intro x hx
      unfold writingNumber at hx ⊢
      simp only at hx ⊢
      rw [Delivery.outcome_increased k delta x.natAbs_toWord_lt, stamped_eq_next hx]
      exact .increased
    simp only [effect] at hlast ⊢
    cases hd : v.doc? k with
    | none =>
      simp only [hd] at hlast ⊢
      exact hwriting _ hlast
    | some d =>
      simp only [hd] at hlast ⊢
      split at hlast
      · next hacc =>
        rw [if_pos hacc]
        exact hwriting _ hlast
      · next hacc =>
        rw [if_neg hacc, Delivery.outcome_notCounter]
        exact .failed fun x h => by cases h

end Script

/-! ### Runs of clients -/

theorem Move.keeps_counted {v v' : View} {c : Command} {a : Except Fault LooseResult} (h : Move v c a v')
    (h0 : 0 ≤ v.last) (hv : v.Counted) : v'.Counted := by
  intro k d hd
  have hlast := h.last_le
  rcases h.doc?_after hd with hd | ⟨hd, hl⟩
  · have := hv k d hd
    omega
  · omega

theorem Move.eq_of_failed {v v' : View} {c : Command} {a : Except Fault LooseResult} (h : Move v c a v')
    (ha : ∀ x, a ≠ .ok (.inl (.ok x))) : v' = v := by
  cases h with
  | failed => rfl
  | read | counted | created | updated | removed | increased => exact absurd rfl (ha _)

namespace Site

variable {bucket : String} {s : Run Site} {settings : Settings} {i : Nat} {c : Command} {v : View}

/-- The last version of a bucket never sinks, and the bucket keeps to its form. -/
theorem shows_turn (h : s.world.Connected bucket) (hv : s.world.server.Shows bucket v) (hc : c.IsFree) :
    ∃ v', ((client settings i).backend.turn c s).after.world.server.Shows bucket v' ∧
      v.last ≤ v'.last := by
  cases ho : c.obstacle? with
  | some p =>
    obtain ⟨-, hworld⟩ := @turn_unsent bucket s settings i c h p ho
    exact ⟨v, by rw [hworld]; exact hv, Int.le_refl _⟩
  | none =>
    obtain ⟨-, hshows, -⟩ := @turn_sent bucket s settings i c h v hv hc ho
    exact ⟨_, hshows, Script.last_le_effect v c⟩

/-- A client's command is a move of what the bucket shows, as long as versions are short. -/
theorem turn_isMove (h : s.world.Connected bucket) (hv : s.world.server.Shows bucket v)
    (hcounted : v.Counted) (hc : c.IsFree)
    (hlast : (((client settings i).backend.turn c s).after.world.server.view bucket).last.natAbs ≤
      2 ^ Rounded.precision) :
    ((client settings i).backend.turn c s).IsMove (fun w => w.server.view bucket) ∧
      (((client settings i).backend.turn c s).after.world.server.view bucket).Counted := by
  cases ho : c.obstacle? with
  | some p =>
    obtain ⟨hanswer, hworld⟩ := @turn_unsent bucket s settings i c h p ho
    refine ⟨⟨?_, fun _ => by rw [hworld, Backend.before_turn]⟩, ?_⟩
    · rw [hanswer, hworld, Backend.before_turn]
      exact .failed fun x h => by cases h
    · rw [hworld, hv.view_eq]
      exact hcounted
  | none =>
    obtain ⟨hanswer, hshows, hsame⟩ := @turn_sent bucket s settings i c h v hv hc ho
    rw [hshows.view_eq] at hlast ⊢
    have hmove := Script.effect_move c hcounted hv.nonneg hlast
    refine ⟨⟨?_, fun hfail => ?_⟩, hmove.keeps_counted hv.nonneg hcounted⟩
    · rw [hanswer, hshows.view_eq, Backend.before_turn, Backend.command_turn, hv.view_eq]
      exact hmove
    · rw [Backend.before_turn]
      refine hsame (hmove.eq_of_failed fun x hx => hfail ⟨x, ?_⟩)
      rw [Turn.Answers, hanswer]
      exact hx

/-- The commands of clients, each with its backend. -/
def commands (settings : Nat → Settings) (cs : List (Nat × Command)) : List (Backend Site × Command) :=
  cs.map fun (i, c) => ((client (settings i) i).backend, c)

theorem shows_afterTurns {settings : Nat → Settings} {cs : List (Nat × Command)}
    (h : s.world.Connected bucket) (hv : s.world.server.Shows bucket v) (hcs : ∀ ic ∈ cs, ic.2.IsFree) :
    ∃ v', (afterTurns (commands settings cs) s).world.server.Shows bucket v' ∧ v.last ≤ v'.last := by
  induction cs generalizing s v with
  | nil => exact ⟨v, hv, Int.le_refl _⟩
  | cons ic cs ih =>
    obtain ⟨i, c⟩ := ic
    have hc : c.IsFree := hcs (i, c) (List.mem_cons_self ..)
    obtain ⟨u, hu, hle⟩ := @shows_turn bucket s (settings i) i c v h hv hc
    have hconn := @connected_turn bucket s (settings i) i c h
    obtain ⟨v', hv', hle'⟩ := ih hconn hu fun ic hic => hcs ic (List.mem_cons_of_mem _ hic)
    exact ⟨v', hv', Int.le_trans hle hle'⟩

/-- All commands of all clients are moves, as long as versions are short. -/
theorem moves {settings : Nat → Settings} {cs : List (Nat × Command)} (h : s.world.Connected bucket)
    (hv : s.world.server.Shows bucket v) (hcounted : v.Counted) (hcs : ∀ ic ∈ cs, ic.2.IsFree)
    (hlast : ((afterTurns (commands settings cs) s).world.server.view bucket).last.natAbs <
      2 ^ Rounded.precision) :
    Moves (fun w => w.server.view bucket) s (turns (commands settings cs) s)
      (afterTurns (commands settings cs) s) := by
  induction cs generalizing s v with
  | nil => exact .nil s
  | cons ic cs ih =>
    obtain ⟨i, c⟩ := ic
    have hc : c.IsFree := hcs (i, c) (List.mem_cons_self ..)
    have hrest : ∀ ic ∈ cs, ic.2.IsFree := fun ic hic => hcs ic (List.mem_cons_of_mem _ hic)
    have hconn := @connected_turn bucket s (settings i) i c h
    obtain ⟨u, hu, hle⟩ := @shows_turn bucket s (settings i) i c v h hv hc
    obtain ⟨v', hv', hle'⟩ := @shows_afterTurns bucket _ u settings cs hconn hu hrest
    -- versions only rise, so what bounds the last one bounds the one after this turn
    have hbound : (((client (settings i) i).backend.turn c s).after.world.server.view
        bucket).last.natAbs ≤ 2 ^ Rounded.precision := by
      have hfinal := hlast
      have hrun : afterTurns (commands settings ((i, c) :: cs)) s =
          afterTurns (commands settings cs) ((client (settings i) i).backend.turn c s).after := rfl
      rw [hrun, hv'.view_eq] at hfinal
      have := hu.nonneg
      rw [hu.view_eq]
      omega
    obtain ⟨hmove, hcounted'⟩ := @turn_isMove bucket s (settings i) i c v h hv hcounted hc hbound
    rw [hu.view_eq] at hcounted'
    have htail := ih hconn hu hcounted' hrest hlast
    have hcons := Moves.cons hmove htail
    rw [Backend.before_turn] at hcons
    exact hcons

end Site

end CasStore
