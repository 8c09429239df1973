import CasStore.Proofs.FirstSignal

/-!
# The answer of a one-sided course

All signals of a course arrive at one place: on the loop, or beside it, with the loop turning wherever it
likes.  Then the answer is there once a final signal has arrived and, beside the loop, the loop has turned
since.  It is what the first final signal comes to, and it stays.

    before the first final signal only the first value is remembered (after_heard)
    the first final signal comes to what is due                      (due_of_decides)
    beside the loop nothing answers before the loop turns            (unanswered_before_turn)
    when there is an answer, and which one it is                     (answer_due)
-/

namespace CasStore

/-! ## Algorithm -/

/-- One of the store's own errors, of this kind and with this cause, that names this key and this
command. -/
def Fault.Tells (kind : FaultKind) (cause : Option Fault) (key command : Value) : Fault → Prop
  | .store d => d.kind = kind ∧ d.cause = cause ∧ d.context.key = key ∧ d.context.command = command
  | .foreign _ _ _ => False

/-- The errors about `t` are of the kinds, have the causes and name the key and the command that they
should, and there is one for every error whose message can be written. -/
structure Subject.Worded (t : Subject) : Prop where
  absent : t.absent.Tells .notFound none (.text t.keyText) (Fault.optionText t.command)
  unreadable : ∀ e : Fault, e.hasMessage = true → ∃ f, t.unreadable e = .ok f ∧
    f.Tells .decode (some e) (Fault.optionText t.key) (Fault.optionText t.command)
  failure : ∀ e : Fault, e.hasMessage = true → e.isOrdinary = true → ∃ f, t.failure e = .ok f ∧
    f.Tells .backend (some e) (Fault.optionText t.key) (Fault.optionText t.command)
  interrupt : ∀ e : Fault, e.hasMessage = true → e.isOrdinary = false → ∃ f, t.failure e = .ok f ∧
    f.Tells .backend (some (.foreign .runtime (some (.text e.message)) 0)) (Fault.optionText t.key)
      (Fault.optionText t.command)
  cancellation : t.cancellation.Tells .backend none (Fault.optionText t.key)
    (Fault.optionText t.command)

namespace Completion

variable {σ : Type}

namespace Event

/-- If the event is a signal, it arrives at `place`. -/
def isAt (place : Place) : Event → Bool
  | .signal p _ => p == place
  | .turn => true

/-- The value that an event reports, unless that is null. -/
def value? : Event → Option Value
  | .signal _ (.value .null) => none
  | .signal _ (.value v) => some v
  | _ => none

end Event

/-- The first value reported that is not null. -/
def heard (es : List Event) : Option Value := es.findSome? Event.value?

/-- A final signal has arrived at `place` and, if that is beside the loop, the loop has turned since. -/
def Settled (place : Place) (es : List Event) : Prop :=
  ∃ front g back, es = front ++ .signal place g :: back ∧ g.isFinal = true ∧
    (place = .besideLoop → .turn ∈ back)

/-- What a final signal comes to, where `first` is the first value before it that is not null. -/
inductive Due (t : Subject) (convert : Converter σ) (s : σ) (first : Option Value) :
    Signal → LooseResult → Prop
  /-- There was no value. -/
  | absent (hfirst : first = none) : Due t convert s first .finished (.inl (.error t.absent))
  /-- The value was converted. -/
  | converted {v r w} (hfirst : first = some v) (h : convert v s = .ok r w) :
      Due t convert s first .finished r
  /-- The conversion raised an error. -/
  | unreadable {v e f w} (hfirst : first = some v) (h : convert v s = .error e w)
      (hf : t.unreadable e = .ok f) : Due t convert s first .finished (.inl (.error f))
  /-- The driver failed. -/
  | failed {e f} (hf : t.failure e = .ok f) : Due t convert s first (.failed e) (.inl (.error f))
  /-- The driver was cancelled. -/
  | cancelled : Due t convert s first .cancelled (.inl (.error t.cancellation))

/-! ## Lemmas -/

variable {t : Subject} {convert : Converter σ} {c : Completion} {s w : σ} {r : LooseResult} {g : Signal}
  {place : Place} {es front back : List Event}

/-! ### Errors -/

theorem worded (t : Subject) : t.Worded where
  absent := ⟨rfl, rfl, rfl, rfl⟩
  unreadable e he := by
    rw [Subject.unreadable, Fault.written_of_hasMessage he]
    exact ⟨_, rfl, rfl, rfl, rfl, rfl⟩
  failure e he ho := ⟨_, t.failure_of_ordinary ho he, rfl, rfl, rfl, rfl⟩
  interrupt e he ho := by
    have htext := Fault.hasMessage_text .runtime e.message 0
    rw [t.failure_of_interrupt ho he, Fault.wrap_of_hasMessage htext]
    exact ⟨_, rfl, rfl, rfl, rfl, rfl⟩
  cancellation := ⟨rfl, rfl, rfl, rfl⟩

/-! ### Before the first final signal -/

theorem value_keep (c : Completion) (v : Value) (place : Place) :
    (c.keep v).value = c.value.or (Event.signal place (.value v)).value? := by
  obtain ⟨value, answer, queue⟩ := c
  cases value <;> cases v <;> rfl

/-- An event that is no final signal adds what it reports, unless there is a value already. -/
theorem value_step (h : c.Unanswered) {e : Event} (he : e.isFinal = false) (s : σ) :
    (step t convert (c, s) e).1.value = c.value.or e.value? := by
  cases e with
  | turn =>
    obtain ⟨value, answer, queue⟩ := c
    have hqueue : queue = [] := h.queue
    subst hqueue
    exact (Option.or_none ..).symm
  | signal place g =>
    cases g with
    | value v =>
      simp only [step, report_value h.answer]
      exact value_keep c v place
    | failed e =>
      simp only [step, report_of_lost h.answer he]
      exact (Option.or_none ..).symm
    | finished | cancelled => cases he

theorem heard_cons (e : Event) (es : List Event) : heard (e :: es) = e.value?.or (heard es) := by
  rw [heard, List.findSome?_cons]
  cases e.value? <;> rfl

/-- As long as no final signal arrives, the first value is remembered and nothing else happens. -/
theorem after_heard (h : c.Unanswered) (hes : ∀ e ∈ es, e.isFinal = false) (s : σ) :
    ∃ d : Completion, after t convert es (c, s) = (d, s) ∧ d.Unanswered ∧
      d.value = c.value.or (heard es) := by
  induction es generalizing c with
  | nil => exact ⟨c, rfl, h, (Option.or_none ..).symm⟩
  | cons e es ih =>
    have he := hes e (List.mem_cons_self ..)
    obtain ⟨d, hstep, hd⟩ := @Unanswered.step _ t convert c h e he s
    have hvalue := @value_step _ t convert c h e he s
    rw [hstep] at hvalue
    obtain ⟨d', hafter, hd', hvalue'⟩ := ih hd fun f hf => hes f (List.mem_cons_of_mem _ hf)
    refine ⟨d', by rw [after_cons, hstep, hafter], hd', ?_⟩
    rw [hvalue', hvalue, heard_cons, Option.or_assoc]

/-! ### The first final signal -/

/-- Every course either has no final signal or a first one. -/
theorem exists_first_final (es : List Event) : (∀ e ∈ es, e.isFinal = false) ∨
    ∃ front place g back, es = front ++ .signal place g :: back ∧ g.isFinal = true ∧
      ∀ e ∈ front, e.isFinal = false := by
  induction es with
  | nil => exact .inl (List.forall_mem_nil _)
  | cons e es ih =>
    cases he : e.isFinal with
    | true =>
      cases e with
      | turn => cases he
      | signal place g => exact .inr ⟨[], place, g, es, rfl, he, List.forall_mem_nil _⟩
    | false =>
      rcases ih with hnone | ⟨front, place, g, back, rfl, hg, hfront⟩
      · exact .inl (List.forall_mem_cons.2 ⟨he, hnone⟩)
      · exact .inr ⟨e :: front, place, g, back, rfl, hg, List.forall_mem_cons.2 ⟨he, hfront⟩⟩

/-- What the first final signal comes to is due. -/
theorem due_of_decides (h : c.Decides t convert g s r w) : Due t convert s c.value g r := by
  cases h with
  | failed hf => exact .failed hf
  | cancelled => exact .cancelled
  | finished h =>
    unfold conclude at h
    cases hvalue : c.value with
    | none =>
      rw [hvalue] at h
      cases h
      exact .absent rfl
    | some v =>
      rw [hvalue] at h
      simp only at h
      cases hv : convert v s with
      | ok r' w' =>
        rw [hv] at h
        cases h
        exact .converted rfl hv
      | error e w' =>
        simp only [hv] at h
        split at h
        · cases hf : t.unreadable e with
          | ok f =>
            simp only [hf] at h
            cases h
            exact .unreadable rfl hv hf
          | error e' =>
            simp only [hf] at h
            cases h
        · cases h

/-! ### Turns of the loop -/

/-- Beside the loop, nothing overtakes the result that waits, as long as the loop does not turn. -/
theorem patient (hes : ∀ e ∈ es, e.isAt .besideLoop = true) (hturn : .turn ∉ es) :
    ∀ e ∈ es, e.isTurn = false ∧ e.overtakes = false := by
  intro e he
  cases e with
  | turn => exact absurd he hturn
  | signal place g =>
    cases place with
    | onLoop => cases hes _ he
    | besideLoop => exact ⟨rfl, rfl⟩

/-- What comes behind some final signal comes behind the first one. -/
theorem mem_behind_first {g' : Signal} {place' : Place} {front' back' : List Event} {e : Event}
    (h : front ++ .signal place g :: back = front' ++ .signal place' g' :: back')
    (hfront : ∀ e ∈ front, e.isFinal = false) (hg' : g'.isFinal = true) (he : e ∈ back') : e ∈ back := by
  rcases List.append_eq_append_iff.1 h with ⟨mid, -, hback⟩ | ⟨mid, rfl, hback⟩
  · cases mid with
    | nil => cases hback; exact he
    | cons x mid =>
      obtain ⟨-, rfl⟩ := List.cons.inj hback
      exact List.mem_append_right mid (List.mem_cons_of_mem _ he)
  · cases mid with
    | nil => cases hback; exact he
    | cons x mid =>
      obtain ⟨rfl, -⟩ := List.cons.inj hback
      have hx := hfront (.signal place' g') (List.mem_append_right front' (List.mem_cons_self ..))
      exact absurd (hx.symm.trans hg') Bool.false_ne_true

/-- Beside the loop, there is no answer before the loop turns. -/
theorem unanswered_before_turn (hfront : ∀ e ∈ front, e.isFinal = false)
    (hg : (after t convert front (empty, s)).1.Decides t convert g s r w)
    (hback : ∀ e ∈ back, e.isAt .besideLoop = true) (hturn : .turn ∉ back) :
    (after t convert (front ++ .signal .besideLoop g :: back) (empty, s)).1.answer = none := by
  obtain ⟨c, hc, hunanswered⟩ := @after_front _ t convert s front hfront
  rw [hc] at hg
  obtain ⟨d, hd, hwaits⟩ := after_besideLoop hc hunanswered hg
  obtain ⟨d', w', hafter, hwaits', -⟩ := @after_of_waits _ t convert d r hwaits back (patient hback hturn) w
  rw [List.append_cons, after_append, hd, hafter]
  exact hwaits'.answer

/-- Beside the loop, the first final signal answers once the loop has turned. -/
theorem answers_behind_turn (hfront : ∀ e ∈ front, e.isFinal = false)
    (hg : (after t convert front (empty, s)).1.Decides t convert g s r w)
    (hback : ∀ e ∈ back, e.isAt .besideLoop = true) (hturn : .turn ∈ back) :
    ∃ w', Answers t convert s (front ++ .signal .besideLoop g :: back) r w' := by
  obtain ⟨c, hc, hunanswered⟩ := @after_front _ t convert s front hfront
  rw [hc] at hg
  obtain ⟨d, hd, hwaits⟩ := after_besideLoop hc hunanswered hg
  obtain ⟨mid, rest, rfl, hmid⟩ := List.eq_append_cons_of_mem hturn
  have hpatient := patient (fun e he => hback e (List.mem_append_left _ he)) hmid
  obtain ⟨d', w', hafter, hwaits', -⟩ := @after_of_waits _ t convert d r hwaits mid hpatient w
  refine ⟨w', ?_⟩
  rw [← List.cons_append, ← List.append_assoc]
  refine answers_turn ?_ hwaits'
  rw [List.append_cons, after_append, hd, hafter]

/-- A course on one side either leaves everything open, or comes to what is due. -/
theorem open_or_due (hconvert : convert.Tame)
    (hes : ∀ e ∈ es, e.isAt place = true) (s : σ) :
    (¬ Settled place es ∧ (after t convert es (empty, s)).1.answer = none) ∨
      Settled place es ∧ ∃ front g back r w, es = front ++ .signal place g :: back ∧
        (∀ e ∈ front, e.isFinal = false) ∧ Due t convert s (heard front) g r ∧
        Answers t convert s es r w := by
  rcases exists_first_final es with hnone | ⟨front, place', g, back, rfl, hg, hfront⟩
  · obtain ⟨c, hc, hunanswered⟩ := @after_front _ t convert s es hnone
    refine .inl ⟨?_, by rw [hc]; exact hunanswered.answer⟩
    rintro ⟨front, g, back, rfl, hg, -⟩
    have hopen := hnone (.signal place g) (List.mem_append_right front (List.mem_cons_self ..))
    exact Bool.false_ne_true (hopen.symm.trans hg)
  · have hplace : place' = place :=
      beq_iff_eq.1 (hes (.signal place' g) (List.mem_append_right front (List.mem_cons_self ..)))
    subst hplace
    have hback : ∀ e ∈ back, e.isAt place' = true := fun e he =>
      hes e (List.mem_append_right front (List.mem_cons_of_mem _ he))
    obtain ⟨c, hc, hunanswered, hvalue⟩ :=
      @after_heard _ t convert empty front ⟨rfl, rfl⟩ hfront s
    obtain ⟨r, w, hdecides⟩ := exists_decides (t := t) hconvert hg c s
    have hdue : Due t convert s (heard front) g r := by
      have h := due_of_decides hdecides
      rwa [hvalue] at h
    have hfirst : (after t convert front (empty, s)).1.Decides t convert g s r w := by
      rw [hc]
      exact hdecides
    cases place' with
    | onLoop =>
      exact .inr ⟨⟨front, g, back, rfl, hg, nofun⟩, front, g, back, r, w, rfl, hfront, hdue,
        answers_onLoop hc hunanswered.answer hdecides⟩
    | besideLoop =>
      by_cases hturn : .turn ∈ back
      · obtain ⟨w', hanswers⟩ := answers_behind_turn hfront hfirst hback hturn
        exact .inr ⟨⟨front, g, back, rfl, hg, fun _ => hturn⟩, front, g, back, r, w', rfl, hfront, hdue,
          hanswers⟩
      · refine .inl ⟨?_, unanswered_before_turn hfront hfirst hback hturn⟩
        rintro ⟨front', g', back', h, hg', hturned⟩
        exact hturn (mem_behind_first h hfront hg' (hturned rfl))

/-! ## Top theorems -/

/-- For every course whose signals all arrive at one place: there is an answer just if a final signal has
arrived and, beside the loop, the loop has turned since.  The answer is what the first final signal comes
to behind the first value that is not null, and nothing that happens later changes it. -/
theorem answer_due (t : Subject) (convert : Converter σ) (hconvert : convert.Tame) (place : Place)
    (es : List Event) (hes : ∀ e ∈ es, e.isAt place = true) (s : σ) :
    ((after t convert es (empty, s)).1.isDone = true ↔ Settled place es) ∧
    (∀ r, (after t convert es (empty, s)).1.answer = some r →
      (∃ front g back, es = front ++ .signal place g :: back ∧ (∀ e ∈ front, e.isFinal = false) ∧
        Due t convert s (heard front) g r) ∧
      ∀ later, (after t convert (es ++ later) (empty, s)).1.answer = some r) ∧
    t.Worded := by
  refine ⟨?_, fun r hr => ⟨?_, fun later => ?_⟩, worded t⟩
  · rcases @open_or_due _ t convert place es hconvert hes s with ⟨hopen, hnone⟩ |
      ⟨hsettled, _, _, _, r, _, _, _, _, d, hd, hr⟩
    · rw [isDone, hnone]
      exact iff_of_false Bool.false_ne_true hopen
    · rw [hd, isDone, hr]
      exact iff_of_true rfl hsettled
  · rcases @open_or_due _ t convert place es hconvert hes s with ⟨-, hnone⟩ |
      ⟨-, front, g, back, r', w, hsplit, hfront, hdue, d, hd, hr'⟩
    · rw [hnone] at hr
      cases hr
    · rw [hd] at hr
      have hsame : r' = r := Option.some.inj (hr'.symm.trans hr)
      subst hsame
      exact ⟨front, g, back, hsplit, hfront, hdue⟩
  · rw [after_append]
    generalize after t convert es (empty, s) = cs at hr ⊢
    obtain ⟨d, hd, hanswer⟩ := @after_of_answered _ t convert _ r hr later cs.2
    exact (congrArg (·.1.answer) hd).trans hanswer

/-- Beside the loop a driver reports null and two values, finishes and fails; the loop turns, and the
driver is cancelled. -/
def talkative : List Event := [.signal .besideLoop (.value .null),
  .signal .besideLoop (.value (.text "v")), .signal .besideLoop (.value (.text "w")),
  .signal .besideLoop .finished, .signal .besideLoop (.failed refused), .turn,
  .signal .besideLoop .cancelled]

/-- The first value that is not null is converted, and answers for good once the loop has turned. -/
theorem first_value_answers :
    counting.Tame ∧ (∀ e ∈ talkative, e.isAt .besideLoop = true) ∧ Settled .besideLoop talkative ∧
    ∀ later, (after unnamed counting (talkative ++ later) (empty, 0)).1.answer =
      some (.inl (.ok (.text "v"))) := by
  have htame : counting.Tame := nofun
  have hes : ∀ e ∈ talkative, e.isAt .besideLoop = true := by decide
  obtain ⟨hdone, hanswer, -⟩ := answer_due unnamed counting htame .besideLoop talkative hes 0
  exact ⟨htame, hes, hdone.1 rfl, (hanswer _ rfl).2⟩

end Completion

end CasStore
