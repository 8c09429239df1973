import CasStore.Proofs.Clients
import CasStore.Proofs.OneSidedCourses

/-!
# Driver outcomes as results

A command that is sent over a live session always comes to a result, whatever its driver does: replies
with any value, raises an error that can be said, or is cancelled.  Replies are not typed; those that miss
what their command asks of them are broken, and those that the scripts send are formed and stand for one
result each.

    a reply is read without an error just if it is not broken        (result_cases)
    a formed reply comes to the result that it stands for            (Formed.outcome_eq)
    the scripts send null or formed replies                          (replies_run)
    every ordinary delivery comes to a result                        (exists_comesTo)
    with a live session a command comes to a result, and without     (perform_answers)
-/

namespace CasStore

variable {σ : Type}

/-! ## Algorithm -/

namespace Wire

/-- The elements of a value: those of a list, and the characters of a text. -/
def elements? : Value → Option (List Value)
  | .list vs => some vs
  | .text s => some (s.toList.map fun c => .text c.toString)
  | _ => none

/-- The reply to this command is read element by element. -/
def isRead : Command → Bool
  | .get _ | .create _ _ | .update _ _ _ | .increment _ _ => true
  | .remove _ | .getCounter _ => false

/-- For this command a reply that begins with `first` needs no further element. -/
def isAlone (c : Command) (first : Value) : Bool :=
  match c with
  | .create _ _ | .increment _ _ => first.equal (.int 0)
  | _ => false

/-- The reply to a command has not the form it should have. -/
inductive Broken : Command → Value → Prop
  /-- It has no elements at all. -/
  | shapeless {c v} (hc : isRead c = true) (h : elements? v = none) : Broken c v
  /-- The first element is missing. -/
  | empty {c v} (hc : isRead c = true) (h : elements? v = some []) : Broken c v
  /-- The second element is missing. -/
  | short {c v x} (hc : isRead c = true) (h : elements? v = some [x]) (hx : isAlone c x = false) :
      Broken c v
  /-- The second element says no whole number. -/
  | number {c v x y rest e} (hc : isRead c = true) (h : elements? v = some (x :: y :: rest))
      (hx : isAlone c x = false) (hy : integer y = .error e) : Broken c v
  /-- The counter has too many digits. -/
  | tooLong {k content n} (h : Counter.read content = .error (.tooLong n)) :
      Broken (.getCounter k) (.text content)

/-- A reply of the form that the scripts send, and the result that it stands for. -/
inductive Formed : Command → Value → Result → Prop
  | found (k content i) :
      Formed (.get k) (.list [.text content, .int i]) (.ok (.document (.text content) ⟨i⟩))
  | created (k content i) :
      Formed (.create k content) (Script.written i) (.ok (.document (.text content) ⟨i⟩))
  | present (k content) :
      Formed (.create k content) (.list [.int 0]) (.error (.alreadyExists k.value))
  | updated (k content w i) :
      Formed (.update k content w) (Script.written i) (.ok (.document (.text content) ⟨i⟩))
  | conflict (k content w i) :
      Formed (.update k content w) (.list [.int 2, .int i]) (.error (.versionConflict k.value w ⟨i⟩))
  | removed (k) : Formed (.remove k) (.int 1) (.ok .null)
  | counter (k) {content i} (h : Counter.read content = .ok i) :
      Formed (.getCounter k) (.text content) (.ok (.int i))
  | noCounter (k) {content} (h : Counter.read content = .error .notCounter) :
      Formed (.getCounter k) (.text content) (.error (.notCounter k.value))
  | longCounter (k) {content n f} (h : Counter.read content = .error (.tooLong n))
      (hf : (Command.getCounter k).subject.unreadable (.ofNumeral (.tooLong n)) = .ok f) :
      Formed (.getCounter k) (.text content) (.error f)
  | increased (k delta) {i} (h : i.natAbs < 10 ^ 20) :
      Formed (.increment k delta) (.list [.int 1, .text (Numeral.text i)]) (.ok (.int i))
  | refused (k delta content) :
      Formed (.increment k delta) (.list [.int 0, .text content])
        (.error ((Fault.notCounter k.value).within
          [("command", .text (Command.increment k delta).tag)]))

end Wire

/-- An error of this kind and with this cause that names a command and its key. -/
def Command.FailsWith (c : Command) (kind : FaultKind) (cause : Option Fault) (r : Result) : Prop :=
  ∃ f : Fault, r = .error f ∧ f.Tells kind cause (.text c.key.value) (.text c.tag)

/-- The work of a driver ends, and what it raises can be caught and said. -/
def Delivery.IsOrdinary : Delivery → Prop
  | .reply _ | .cancelled => True
  | .raised e => Ordinary e
  | .endless => False

/-- What the delivery of a command comes to. -/
inductive Delivery.ComesTo (c : Command) : Delivery → Result → Prop
  | absent {r} (h : c.FailsWith .notFound none r) : ComesTo c (.reply .null) r
  | broken {v e r} (hv : v ≠ .null) (hbroken : Wire.Broken c v)
      (h : c.FailsWith .decode (some e) r) : ComesTo c (.reply v) r
  | converted {v r} (hv : v ≠ .null) (hwhole : ¬ Wire.Broken c v) (h : Wire.result v c = .ok r) :
      ComesTo c (.reply v) r
  | failed {e r} (h : c.FailsWith .backend (some e) r) : ComesTo c (.raised e) r
  | cancelled {r} (h : c.FailsWith .backend none r) : ComesTo c .cancelled r

/-! ## Lemmas -/

/-! ### Reading elements -/

namespace Wire

variable {c : Command} {v w : Value} {vs : List Value} {i : Nat} {e : Fault}

theorem element_of_shapeless (h : elements? v = none) : ∃ e, element 0 v = .error e ∧ Ordinary e := by
  cases v with
  | list | text => cases h
  | record =>
    refine ⟨_, rfl, rfl, ?_⟩
    have hzero : Numeral.write (0 : Nat) = .ok (Numeral.text (0 : Nat)) := Numeral.write_eq_text (by decide)
    simp only [Fault.hasMessage, Value.isPrintable, isWritable, hzero]
    rfl
  | _ => exact ⟨_, rfl, ordinary_text rfl⟩

theorem element_of_elements (h : elements? v = some vs) (hi : vs[i]? = some w) : element i v = .ok w := by
  cases v with
  | list ws =>
    cases h
    simp only [element, hi]
  | text s =>
    cases h
    rw [List.getElem?_map, Option.map_eq_some_iff] at hi
    obtain ⟨c, hc, rfl⟩ := hi
    simp only [element, character?, hc]
  | _ => cases h

theorem element_of_missing (h : elements? v = some vs) (hi : vs[i]? = none) :
    ∃ e, element i v = .error e ∧ Ordinary e := by
  cases v with
  | list ws =>
    cases h
    simp only [element, hi]
    exact ⟨_, rfl, ordinary_text rfl⟩
  | text s =>
    cases h
    rw [List.getElem?_map, Option.map_eq_none_iff] at hi
    simp only [element, character?, hi]
    exact ⟨_, rfl, ordinary_text rfl⟩
  | _ => cases h

theorem ordinary_integer (h : integer v = .error e) : Ordinary e := by
  cases v with
  | int | bool => cases h
  | float x =>
    simp only [integer, wholePart] at h
    split at h
    · cases h
      exact ordinary_text rfl
    · split at h <;> cases h
      exact ordinary_text rfl
  | text s =>
    simp only [integer] at h
    cases hread : Numeral.read s with
    | ok i =>
      rw [hread] at h
      cases h
    | error p =>
      rw [hread] at h
      cases h
      exact ordinary_ofNumeral p
  | _ =>
    cases h
    exact ordinary_text rfl

/-! ### Broken replies -/

/-- A reply is read element by element: what it stands for is `alone` if the first one is enough, and
otherwise `said` of the first one and the number that the second one says. -/
def reading (c : Command) (alone : Result) (said : Value → Int → Result) (v : Value) :
    Except Fault Result := do
  let first ← element 0 v
  if isAlone c first then return alone
  else return said first (← integer (← element 1 v))

theorem exists_reading (hc : isRead c = true) :
    ∃ alone said, ∀ v, result v c = reading c alone said v := by
  cases c with
  | remove | getCounter => cases hc
  | get k =>
    refine ⟨.ok .null, fun first i => .ok (.document first ⟨i⟩), fun v => ?_⟩
    simp only [result, reading, isAlone, document]
    rfl
  | create k content =>
    refine ⟨.error (.alreadyExists k.value), fun _ i => .ok (.document (.text content) ⟨i⟩), fun v => ?_⟩
    simp only [result, reading, isAlone, document]
    rfl
  | update k content w =>
    refine ⟨.ok .null, fun first i => if first.equal (.int 2) then
      .error (.versionConflict k.value w ⟨i⟩) else .ok (.document (.text content) ⟨i⟩), fun v => ?_⟩
    simp only [result, reading, isAlone, document]
    cases element 0 v with
    | error e => rfl
    | ok first =>
      cases hfirst : first.equal (.int 2)
      · simp only [bind, Except.bind, hfirst]
        rfl
      · simp only [bind, Except.bind, hfirst]
        rfl
  | increment k delta =>
    refine ⟨.error ((Fault.notCounter k.value).within
      [("command", .text (Command.increment k delta).tag)]), fun _ i => .ok (.int i), fun v => ?_⟩
    simp only [result, reading, isAlone]
    rfl

variable {alone : Result} {said : Value → Int → Result}

theorem reading_of_error (h : element 0 v = .error e) : reading c alone said v = .error e := by
  simp only [reading, h]
  rfl

/-- The second element is read where the first is not enough. -/
theorem reading_second {x : Value} (h : element 0 v = .ok x) (hx : isAlone c x = false) :
    reading c alone said v = (do return said x (← integer (← element 1 v))) := by
  simp only [reading, h]
  show (if isAlone c x = true then _ else _) = _
  rw [hx]
  rfl

theorem error_of_broken (hc : isRead c = true) (h : Broken c v) :
    ∃ e, reading c alone said v = .error e ∧ Ordinary e := by
  cases h with
  | shapeless _ h =>
    obtain ⟨e, he, hordinary⟩ := element_of_shapeless h
    exact ⟨e, reading_of_error he, hordinary⟩
  | empty _ h =>
    obtain ⟨e, he, hordinary⟩ := element_of_missing (i := 0) h rfl
    exact ⟨e, reading_of_error he, hordinary⟩
  | short _ h hx =>
    obtain ⟨e, he, hordinary⟩ := element_of_missing (i := 1) h rfl
    refine ⟨e, ?_, hordinary⟩
    rw [reading_second (element_of_elements h rfl) hx, he]
    rfl
  | number _ h hx hy =>
    refine ⟨_, ?_, ordinary_integer hy⟩
    rw [reading_second (element_of_elements h rfl) hx, element_of_elements h rfl]
    show (do return said _ (← integer _)) = _
    rw [hy]
    rfl
  | tooLong => cases hc

theorem broken_of_error (hc : isRead c = true) (h : reading c alone said v = .error e) :
    Broken c v := by
  cases hv : elements? v with
  | none => exact .shapeless hc hv
  | some vs =>
    match vs, hv with
    | [], hv => exact .empty hc hv
    | x :: rest, hv =>
      have hfirst : element 0 v = .ok x := element_of_elements hv rfl
      cases hx : isAlone c x with
      | true =>
        simp only [reading, hfirst, bind, Except.bind, hx, if_true] at h
        cases h
      | false =>
        rw [reading_second hfirst hx] at h
        match rest, hv with
        | [], hv => exact .short hc hv hx
        | y :: rest, hv =>
          rw [element_of_elements hv rfl] at h
          cases hy : integer y with
          | error => exact .number hc hv hx hy
          | ok i =>
            simp only [bind, Except.bind, hy] at h
            cases h

theorem broken_getCounter_iff {k : Key} : Broken (.getCounter k) v ↔
    ∃ content n, v = .text content ∧ Counter.read content = .error (.tooLong n) := by
  refine ⟨fun h => ?_, ?_⟩
  · cases h with
    | tooLong h => exact ⟨_, _, rfl, h⟩
    | shapeless hc | empty hc | short hc | number hc => cases hc
  · rintro ⟨content, n, rfl, h⟩
    exact .tooLong h

/-- The text of a counter is read without an error unless it has too many digits. -/
theorem counter_cases (k : Key) (v : Value) :
    (¬ Broken (.getCounter k) v ∧ ∃ r, result v (.getCounter k) = .ok r) ∨
      (Broken (.getCounter k) v ∧ ∃ e, result v (.getCounter k) = .error e ∧ Ordinary e) := by
  rw [broken_getCounter_iff]
  by_cases hlong : ∃ content n, v = .text content ∧ Counter.read content = .error (.tooLong n)
  · refine .inr ⟨hlong, ?_⟩
    obtain ⟨content, n, rfl, h⟩ := hlong
    simp only [result, counter, h]
    exact ⟨_, rfl, ordinary_ofNumeral _⟩
  · refine .inl ⟨hlong, ?_⟩
    cases v with
    | text content =>
      simp only [result, counter]
      cases h : Counter.read content with
      | ok i => exact ⟨_, rfl⟩
      | error p =>
        cases p with
        | notCounter => exact ⟨_, rfl⟩
        | tooLong n => exact absurd ⟨content, n, rfl, h⟩ hlong
    | _ => exact ⟨_, rfl⟩

/-- A reply that is not broken stands for a result; over a broken one an ordinary error is raised. -/
theorem result_cases (c : Command) (v : Value) :
    (¬ Broken c v ∧ ∃ r, result v c = .ok r) ∨
      (Broken c v ∧ ∃ e, result v c = .error e ∧ Ordinary e) := by
  cases hc : isRead c with
  | true =>
    obtain ⟨alone, said, hread⟩ := exists_reading hc
    rw [hread v]
    cases h : reading c alone said v with
    | ok r =>
      refine .inl ⟨fun hbroken => ?_, r, rfl⟩
      obtain ⟨e, he, -⟩ := @error_of_broken c v alone said hc hbroken
      cases h.symm.trans he
    | error e =>
      have hbroken := broken_of_error hc h
      obtain ⟨e', he', hordinary⟩ := @error_of_broken c v alone said hc hbroken
      cases h.symm.trans he'
      exact .inr ⟨hbroken, e, rfl, hordinary⟩
  | false =>
    cases c with
    | get | create | update | increment => cases hc
    | getCounter k => exact counter_cases k v
    | remove k =>
      refine .inl ⟨fun hbroken => ?_, .ok .null, rfl⟩
      cases hbroken with
      | shapeless hc | empty hc | short hc | number hc => cases hc

/-! ### Replies of the scripts -/

/-- A formed reply is awaited to the result it stands for. -/
theorem Formed.outcome_eq {x : Result} (h : Formed c v x) : (Delivery.reply v).outcome c = .ok (.inl x) := by
  cases h with
  | found k content i => exact Delivery.outcome_document k content i
  | created k content i => exact Delivery.outcome_created k content i
  | present k content => exact Delivery.outcome_present k content
  | updated k content w i => exact Delivery.outcome_updated k content w i
  | conflict k content w i => exact Delivery.outcome_conflict k content w i
  | removed k => rfl
  | increased k delta h => exact Delivery.outcome_increased k delta h
  | refused k delta content => exact Delivery.outcome_notCounter k delta content
  | counter k h | noCounter k h =>
    show Wire.settled _ _ = _
    simp only [settled, result, Wire.counter, h]
  | longCounter k h hf =>
    show Wire.settled _ _ = _
    simp only [settled, result, Wire.counter, h, (ordinary_ofNumeral _).1, if_true, hf]
    rfl

end Wire

/-- Whatever a call of the server returns is null or a formed reply to the command. -/
def Script.Replies (c : Command) (call : ServerCall Value) : Prop :=
  ∀ ks v ks', call ks = .ok v ks' → v = .null ∨ ∃ x, Wire.Formed c v x

namespace Script

variable {c : Command}

theorem Replies.null : Replies c (pure .null) := by
  intro ks v ks' h
  cases h
  exact .inl rfl

theorem Replies.of_formed {v : Value} {x : Result} (h : Wire.Formed c v x) : Replies c (pure v) := by
  intro ks w ks' hw
  cases hw
  exact .inr ⟨x, h⟩

theorem Replies.bind {α : Type} {call : ServerCall α} {f : α → ServerCall Value}
    (h : ∀ a, Replies c (f a)) : Replies c (call >>= f) := by
  intro ks v ks' hv
  cases hcall : call ks with
  | ok a t =>
    rw [bind_of_ok hcall] at hv
    exact h a t v ks' hv
  | error e t =>
    rw [bind_of_error hcall] at hv
    cases hv

theorem Replies.ite {p : Prop} [Decidable p] {x y : ServerCall Value} (hx : Replies c x)
    (hy : Replies c y) : Replies c (if p then x else y) := by
  split <;> assumption

theorem replies_writeNumber (r : Request) (k : Key) (delta : Int) (x : Rounded) :
    Replies (.increment k delta) (writeNumber r x) :=
  .bind fun _ => .of_formed (.increased k delta x.natAbs_toWord_lt)

/-- The text of a counter is a formed reply, whatever it says. -/
theorem replies_counter (k : Key) (content : String) : Replies (.getCounter k) (pure (.text content)) := by
  cases h : Counter.read content with
  | ok i => exact .of_formed (.counter k h)
  | error p =>
    cases p with
    | notCounter => exact .of_formed (.noCounter k h)
    | tooLong n =>
      have hsaid := (ordinary_ofNumeral (.tooLong n)).2
      exact .of_formed (.longCounter k h (Subject.unreadable_of_hasMessage _ hsaid))

/-- The scripts reply with null or a formed reply. -/
theorem replies_run (r : Request) : Replies r.command (run r) := by
  unfold run
  cases r.command with
  | get k =>
    refine .bind fun d => ?_
    cases d with
    | none => exact .null
    | some d => exact .of_formed (.found k d.content _)
  | create k content =>
    exact .bind fun held => .ite (.of_formed (.present k content))
      (.bind fun i => .of_formed (.created k content i))
  | update k content w =>
    refine .bind fun d => ?_
    cases d with
    | none => exact .null
    | some d =>
      exact .ite (.of_formed (.conflict k content w _)) (.bind fun i => .of_formed (.updated k content w i))
  | remove k => exact .bind fun held => .ite (.of_formed (.removed k)) .null
  | getCounter k =>
    refine .bind fun d => ?_
    cases d with
    | none => exact .null
    | some d => exact replies_counter k d.content
  | increment k delta =>
    refine .bind fun d => ?_
    cases d with
    | none => exact replies_writeNumber r k delta _
    | some d => exact .ite (replies_writeNumber r k delta _) (.of_formed (.refused k delta d.content))

end Script

/-! ### Deliveries -/

namespace Delivery

variable {c : Command}

/-- The errors of a command's completion name the command and its key. -/
theorem failsWith_subject (c : Command) :
    c.FailsWith .notFound none (.error c.subject.absent) ∧
    (∀ e, Ordinary e → ∃ f, c.subject.unreadable e = .ok f ∧ c.FailsWith .decode (some e) (.error f)) ∧
    (∀ e, Ordinary e → ∃ f, c.subject.failure e = .ok f ∧ c.FailsWith .backend (some e) (.error f)) ∧
    c.FailsWith .backend none (.error c.subject.cancellation) := by
  have hworded := Completion.worded c.subject
  have hkey : c.subject.keyText = c.key.value := if_neg c.key.ne_empty
  refine ⟨⟨_, rfl, ?_⟩, fun e he => ?_, fun e he => ?_, ⟨_, rfl, hworded.cancellation⟩⟩
  · rw [← hkey]
    exact hworded.absent
  · obtain ⟨f, hf, htells⟩ := hworded.unreadable e he.2
    exact ⟨f, hf, _, rfl, htells⟩
  · obtain ⟨f, hf, htells⟩ := hworded.failure e he.2 he.1
    exact ⟨f, hf, _, rfl, htells⟩

/-- Every ordinary delivery is awaited to a result. -/
theorem exists_comesTo (c : Command) {d : Delivery} (hd : d.IsOrdinary) :
    ∃ r, d.outcome c = .ok (.inl r) ∧ d.ComesTo c r := by
  obtain ⟨habsent, hunreadable, hfailure, hcancelled⟩ := failsWith_subject c
  cases d with
  | endless => cases hd
  | raised e =>
    obtain ⟨f, hf, hfails⟩ := hfailure e hd
    exact ⟨.error f, by rw [outcome, hf]; rfl, .failed hfails⟩
  | cancelled => exact ⟨_, rfl, .cancelled hcancelled⟩
  | reply v =>
    by_cases hv : v = .null
    · subst hv
      exact ⟨_, rfl, .absent habsent⟩
    · have houtcome : (reply v).outcome c = Wire.settled c v := by
        cases v with
        | null => exact absurd rfl hv
        | _ => rfl
      rw [houtcome]
      simp only [Wire.settled]
      rcases Wire.result_cases c v with ⟨hwhole, r, hr⟩ | ⟨hbroken, e, he, hordinary⟩
      · rw [hr]
        exact ⟨r, rfl, .converted hv hwhole hr⟩
      · obtain ⟨f, hf, hfails⟩ := hunreadable e hordinary
        rw [he]
        simp only [hordinary.1, if_true, hf]
        exact ⟨_, rfl, .broken hv hbroken hfails⟩

end Delivery

/-! ## Top theorems -/

namespace Network

/-- For every driver and every command.  With no live session the command fails as not connected, and
nothing has changed.  Over a live session it is sent once and comes to a result, if the driver's work
ends and what it may raise can be said: null to `notFound`; what is raised and a cancellation to
`backend`; a broken reply to `decode`; and a reply that is not broken to what is made of it, which for a
formed reply is the result that it stands for.  The scripts reply with null or formed replies only. -/
theorem perform_answers (n : Network σ) (c : Command) (s : Run σ) :
    ((n.slot.get s.world).live = none →
      ∃ r, n.perform c s = .ok (.inl r) s ∧ c.FailsWith .notConnected none r) ∧
    (∀ session, (n.slot.get s.world).live = some session →
      (n.driver.send (session.request c) s.world).1.IsOrdinary →
      ∃ r t, n.perform c s = .ok (.inl r) t ∧
        t.world = (n.driver.send (session.request c) s.world).2 ∧
        (n.driver.send (session.request c) s.world).1.ComesTo c r ∧
        ∀ v x, (n.driver.send (session.request c) s.world).1 = .reply v → Wire.Formed c v x → r = x) ∧
    ∀ r, r.command = c → Script.Replies c (Script.run r) := by
  refine ⟨fun hlive => ?_, fun session hlive hordinary => ?_, fun r hr => hr ▸ Script.replies_run r⟩
  · refine ⟨.error (unreachable c), ?_, _, rfl, rfl, rfl, rfl, rfl⟩
    unfold perform
    rw [bind_of_ok (show n.link s = .ok (n.slot.get s.world) s from rfl)]
    simp only [hlive]
    rfl
  · obtain ⟨r, houtcome, hcomes⟩ := Delivery.exists_comesTo c hordinary
    let sent : Run σ := { s with world := (n.driver.send (session.request c) s.world).2 }
    obtain ⟨t, hworld, hawait⟩ := await_eq (n.driver.send (session.request c) s.world).1 c sent
    refine ⟨r, t, ?_, hworld, hcomes, fun v x hv hx => ?_⟩
    · rw [perform_live c rfl hlive]
      show (n.driver.send (session.request c) s.world).1.await c.subject (converter c) sent = _
      rw [hawait, houtcome]
      rfl
    · rw [hv, hx.outcome_eq] at houtcome
      exact (Sum.inl.inj (Except.ok.inj houtcome)).symm

/-- A driver that counts its requests: it has a conflict over every update and an empty list for every
creation, and cannot be reached for anything else. -/
def wayward : Driver (Link × Nat) where
  ping := fun _ w => .ok () w
  prepare := fun _ w => w
  send := fun r w =>
    (match r.command with
      | .update _ _ _ => .reply (.list [.int 2, .int 11])
      | .create _ _ => .reply (.list [])
      | _ => .raised (.foreign .driverTimeout (some (.text "timed out")) 0),
      (w.1, w.2 + 1))
  close := fun _ w => .ok () w

/-- The network of the wayward driver. -/
def waywardNetwork : Network (Link × Nat) := ⟨.default, wayward, ⟨Prod.fst, fun l w => (l, w.2)⟩⟩

/-- A conflict, an unreadable reply, a timeout, and no request without a session. -/
theorem wayward_answers :
    (∃ t, waywardNetwork.perform (.update .a "w" ⟨8⟩) (.start (Link.idle.connect "b", 0)) =
        .ok (.inl (.error (.versionConflict "a" ⟨8⟩ ⟨11⟩))) t ∧ t.world.2 = 1) ∧
    (∃ r e t, waywardNetwork.perform (.create .a "v") (.start (Link.idle.connect "b", 0)) =
        .ok (.inl r) t ∧ Command.FailsWith (.create .a "v") .decode (some e) r) ∧
    (∃ r t, waywardNetwork.perform (.remove .a) (.start (Link.idle.connect "b", 0)) = .ok (.inl r) t ∧
      Command.FailsWith (.remove .a) .backend
        (some (.foreign .driverTimeout (some (.text "timed out")) 0)) r) ∧
    ∃ r, waywardNetwork.perform (.get .a) (.start (Link.idle, 0)) =
      .ok (.inl r) (.start (Link.idle, 0)) := by
  let live : Run (Link × Nat) := .start (Link.idle.connect "b", 0)
  obtain ⟨-, hupdate, -⟩ := perform_answers waywardNetwork (.update .a "w" ⟨8⟩) live
  obtain ⟨-, hcreate, -⟩ := perform_answers waywardNetwork (.create .a "v") live
  obtain ⟨-, hremove, -⟩ := perform_answers waywardNetwork (.remove .a) live
  obtain ⟨hidle, -⟩ := perform_answers waywardNetwork (.get .a) (.start (Link.idle, 0))
  refine ⟨?_, ?_, ?_, ?_⟩
  · obtain ⟨r, t, hr, hworld, -, hformed⟩ := hupdate ⟨0, "b"⟩ rfl trivial
    cases hformed _ _ rfl (.conflict .a "w" ⟨8⟩ 11)
    exact ⟨t, hr, congrArg Prod.snd hworld⟩
  · obtain ⟨r, t, hr, -, hcomes, -⟩ := hcreate ⟨0, "b"⟩ rfl trivial
    cases hcomes with
    | broken _ _ h => exact ⟨r, _, t, hr, h⟩
    | converted _ hwhole => exact absurd (.empty rfl rfl) hwhole
  · obtain ⟨r, t, hr, -, hcomes, -⟩ := hremove ⟨0, "b"⟩ rfl (ordinary_text rfl)
    cases hcomes with
    | failed h => exact ⟨r, t, hr, h⟩
  · obtain ⟨r, hr, -⟩ := hidle rfl
    exact ⟨r, hr⟩

end Network

end CasStore
