import CasStore.Network.Completion

/-!
# Which signal answers

Signals arrive on the loop that waits for the answer or beside it, one at a time, and the loop turns in
between.  A signal is final if the driver reports nothing after it; an error whose message cannot be
written is lost, and not final.  The first final signal decides at once if it arrives on the loop.  Beside
the loop it decides as well, but what it comes to waits for the loop to turn: until then, a final signal
on the loop overtakes it, and a driver that finishes once more has its value converted once more.

    only final signals answer                                        (after_of_unanswered)
    after an answer nothing changes, and nothing is converted        (after_of_answered)
    what waits first is the answer when the loop turns               (answer_turn_of_waits)
    which signal answers                                             (first_signal_decides)
    a late signal may answer, and may have a value converted again   (late_signals_count)
-/

namespace CasStore

/-- The driver reports nothing after this signal.  An error whose message cannot be written does not count:
taking it raises, and leaves the completion as it is. -/
def Signal.isFinal : Signal → Bool
  | .value _ => false
  | .failed e => e.hasMessage
  | .finished | .cancelled => true

/-- What the converter raises can be caught, and its message written. -/
def Converter.Tame {σ : Type} (convert : Converter σ) : Prop :=
  ∀ v s e w, convert v s = .error e w → Ordinary e

namespace Completion

variable {σ : Type}

/-! ## Algorithm -/

/-- What may happen while a driver works: a signal arrives, or the loop turns. -/
inductive Event
  | signal (place : Place) (signal : Signal)
  | turn

namespace Event

/-- A final signal arrives. -/
def isFinal : Event → Bool
  | .signal _ g => g.isFinal
  | .turn => false

/-- A final signal arrives on the loop. -/
def overtakes : Event → Bool
  | .signal .onLoop g => g.isFinal
  | _ => false

/-- The loop turns. -/
def isTurn : Event → Bool
  | .turn => true
  | .signal _ _ => false

/-- The driver has finished, so its value may have to be converted. -/
def converts : Event → Bool
  | .signal _ .finished => true
  | _ => false

end Event

/-- What a final signal comes to, where nothing has been decided: a result, and the world that the
conversion of the value leaves. -/
inductive Decides (c : Completion) (t : Subject) (convert : Converter σ) :
    Signal → σ → LooseResult → σ → Prop
  | finished {s r w} (h : c.conclude t convert s = .ok r w) : Decides c t convert .finished s r w
  | failed {s e f} (h : t.failure e = .ok f) : Decides c t convert (.failed e) s (.inl (.error f)) s
  | cancelled {s} : Decides c t convert .cancelled s (.inl (.error t.cancellation)) s

/-- The completion and the world after an event.  What the taking of a signal raises goes to the driver
and leaves the completion as it is. -/
def step (t : Subject) (convert : Converter σ) (cs : Completion × σ) : Event → Completion × σ
  | .turn => (cs.1.turn, cs.2)
  | .signal place g =>
    match cs.1.report t convert place g cs.2 with
    | .ok c s => (c, s)
    | .error _ s => (cs.1, s)

/-- The completion and the world after events. -/
def after (t : Subject) (convert : Converter σ) (es : List Event) (cs : Completion × σ) :
    Completion × σ := es.foldl (step t convert) cs

/-- After events the answer is `r`, and `w` is the world that they leave. -/
def Answers (t : Subject) (convert : Converter σ) (s : σ) (es : List Event) (r : LooseResult) (w : σ) :
    Prop := ∃ d : Completion, after t convert es (empty, s) = (d, w) ∧ d.answer = some r

/-- Nothing has been decided. -/
structure Unanswered (c : Completion) : Prop where
  answer : c.answer = none
  queue : c.queue = []

/-- There is no answer yet, and `r` is the first result that waits for the loop. -/
structure Waits (c : Completion) (r : LooseResult) : Prop where
  answer : c.answer = none
  queue : c.queue.head? = some r

/-! ## Lemmas -/

variable {t : Subject} {convert : Converter σ} {c : Completion} {s w : σ} {r : LooseResult}
  {g : Signal}

theorem after_cons (e : Event) (es : List Event) (cs : Completion × σ) :
    after t convert (e :: es) cs = after t convert es (step t convert cs e) := rfl

theorem after_append (es fs : List Event) (cs : Completion × σ) :
    after t convert (es ++ fs) cs = after t convert fs (after t convert es cs) :=
  List.foldl_append

/-! ### Final signals -/

/-- A final signal always comes to something, where the converter is tame. -/
theorem exists_decides (hconvert : convert.Tame) (hg : g.isFinal = true) (c : Completion) (s : σ) :
    ∃ r w, c.Decides t convert g s r w := by
  cases g with
  | value v => cases hg
  | failed e =>
    obtain ⟨f, hf⟩ := t.exists_failure hg
    exact ⟨_, _, .failed hf⟩
  | cancelled => exact ⟨_, _, .cancelled⟩
  | finished =>
    suffices h : ∃ r w, c.conclude t convert s = .ok r w by
      obtain ⟨r, w, h⟩ := h
      exact ⟨r, w, .finished h⟩
    unfold conclude
    cases c.value with
    | none => exact ⟨_, _, rfl⟩
    | some v =>
      simp only
      cases hv : convert v s with
      | ok r w => exact ⟨r, w, rfl⟩
      | error e w =>
        obtain ⟨ho, hm⟩ := hconvert v s e w hv
        simp only [ho, if_true, Subject.unreadable, Fault.written_of_hasMessage hm]
        exact ⟨_, w, rfl⟩

theorem report_of_decides (hc : c.answer = none) (h : c.Decides t convert g s r w) (place : Place) :
    c.report t convert place g s = .ok (c.resolve place r) w := by
  have hdone : c.isDone = false := by rw [isDone, hc]; rfl
  cases h with
  | finished h => simp only [report, hdone, h, Bool.false_eq_true, if_false]
  | failed h => simp only [report, hdone, h, Bool.false_eq_true, if_false]
  | cancelled => simp only [report, hdone, Bool.false_eq_true, if_false]

theorem report_of_raised {e : Fault} (hc : c.answer = none) (h : c.conclude t convert s = .error e w)
    (place : Place) : c.report t convert place .finished s = .error e w := by
  have hdone : c.isDone = false := by rw [isDone, hc]; rfl
  simp only [report, hdone, h, Bool.false_eq_true, if_false]

theorem report_of_lost {e : Fault} (hc : c.answer = none) (h : e.hasMessage = false) (place : Place)
    (s : σ) : c.report t convert place (.failed e) s = .error (.ofNumeral .tooLarge) s := by
  have hdone : c.isDone = false := by rw [isDone, hc]; rfl
  simp only [report, hdone, t.failure_eq_error h, Bool.false_eq_true, if_false]

theorem report_value (hc : c.answer = none) (place : Place) (v : Value) (s : σ) :
    c.report t convert place (.value v) s = .ok (c.keep v) s := by
  have hdone : c.isDone = false := by rw [isDone, hc]; rfl
  simp only [report, hdone, Bool.false_eq_true, if_false]

theorem answer_keep (c : Completion) (v : Value) : (c.keep v).answer = c.answer := by
  unfold keep
  split <;> rfl

theorem queue_keep (c : Completion) (v : Value) : (c.keep v).queue = c.queue := by
  unfold keep
  split <;> rfl

/-! ### Before a decision -/

theorem Unanswered.step (h : c.Unanswered) {e : Event} (he : e.isFinal = false) (s : σ) :
    ∃ d : Completion, Completion.step t convert (c, s) e = (d, s) ∧ d.Unanswered := by
  cases e with
  | turn =>
    refine ⟨c.turn, rfl, ?_⟩
    have hturn : c.turn = c := by
      obtain ⟨value, answer, queue⟩ := c
      have hqueue : queue = [] := h.queue
      rw [hqueue]
      rfl
    rw [hturn]
    exact h
  | signal place g =>
    cases g with
    | value v =>
      refine ⟨c.keep v, ?_, ?_⟩
      · simp only [Completion.step, report_value h.answer]
      · exact ⟨(answer_keep c v).trans h.answer, (queue_keep c v).trans h.queue⟩
    | failed e =>
      refine ⟨c, ?_, h⟩
      simp only [Completion.step, report_of_lost h.answer he]
    | finished | cancelled => cases he

/-- As long as no final signal arrives, nothing is decided and nothing converted. -/
theorem after_of_unanswered (h : c.Unanswered) {es : List Event} (hes : ∀ e ∈ es, e.isFinal = false)
    (s : σ) : ∃ d : Completion, after t convert es (c, s) = (d, s) ∧ d.Unanswered := by
  induction es generalizing c with
  | nil => exact ⟨c, rfl, h⟩
  | cons e es ih =>
    obtain ⟨d, hstep, hd⟩ := @Unanswered.step _ t convert c h e (hes e (List.mem_cons_self ..)) s
    rw [after_cons, hstep]
    exact ih hd fun f hf => hes f (List.mem_cons_of_mem _ hf)

/-! ### After an answer -/

/-- After an answer nothing changes, and nothing is converted. -/
theorem after_of_answered (h : c.answer = some r) (es : List Event) (s : σ) :
    ∃ d : Completion, after t convert es (c, s) = (d, s) ∧ d.answer = some r := by
  induction es generalizing c with
  | nil => exact ⟨c, rfl, h⟩
  | cons e es ih =>
    rw [after_cons]
    cases e with
    | turn => exact ih (answer_turn h)
    | signal place g =>
      simp only [step, answer_report h]
      exact ih h

/-! ### While a decision waits for the loop -/

theorem answer_turn_of_waits (h : c.Waits r) : c.turn.answer = some r := by
  obtain ⟨value, answer, queue⟩ := c
  cases queue with
  | nil => cases h.queue
  | cons r' queue =>
    have hanswer : answer = none := h.answer
    have hfirst : r' = r := Option.some.inj h.queue
    subst hanswer hfirst
    show (queue.foldl settle ⟨value, some r', r' :: queue⟩).answer = some r'
    rw [answer_foldl_settle queue rfl]

theorem Waits.resolve (h : c.Waits r) (r' : LooseResult) : (c.resolve .besideLoop r').Waits r := by
  refine ⟨h.answer, ?_⟩
  show (c.queue ++ [r']).head? = some r
  rw [List.head?_append, h.queue]
  rfl

/-- Until the loop turns, signals beside it queue up behind the result that waits. -/
theorem Waits.step (h : c.Waits r) {e : Event} (hturn : e.isTurn = false) (he : e.overtakes = false)
    (s : σ) : ∃ (d : Completion) (w : σ), Completion.step t convert (c, s) e = (d, w) ∧ d.Waits r ∧
      (e.converts = false → w = s) := by
  cases e with
  | turn => cases hturn
  | signal place g =>
    -- what a final signal beside the loop comes to is put behind
    have hbehind : ∀ {r' w}, c.Decides t convert g s r' w → place = .besideLoop →
        Completion.step t convert (c, s) (.signal place g) = (c.resolve .besideLoop r', w) := by
      rintro r' w hd rfl
      simp only [Completion.step, report_of_decides h.answer hd]
    cases g with
    | value v =>
      refine ⟨c.keep v, s, by simp only [Completion.step, report_value h.answer], ?_, fun _ => rfl⟩
      exact ⟨(answer_keep c v).trans h.answer, by rw [queue_keep]; exact h.queue⟩
    | failed e =>
      cases hm : e.hasMessage with
      | false => exact ⟨c, s, by simp only [Completion.step, report_of_lost h.answer hm], h, fun _ => rfl⟩
      | true =>
        obtain ⟨f, hf⟩ := t.exists_failure hm
        cases place with
        | onLoop => exact absurd (he.symm.trans hm) Bool.false_ne_true
        | besideLoop => exact ⟨_, _, hbehind (.failed hf) rfl, h.resolve _, fun _ => rfl⟩
    | cancelled =>
      cases place with
      | onLoop => cases he
      | besideLoop => exact ⟨_, _, hbehind .cancelled rfl, h.resolve _, fun _ => rfl⟩
    | finished =>
      cases place with
      | onLoop => cases he
      | besideLoop =>
        cases hc : c.conclude t convert s with
        | ok r' w => exact ⟨_, _, hbehind (.finished hc) rfl, h.resolve _, nofun⟩
        | error e w =>
          refine ⟨c, w, ?_, h, nofun⟩
          simp only [Completion.step, report_of_raised h.answer hc]

theorem after_of_waits (h : c.Waits r) {es : List Event}
    (hes : ∀ e ∈ es, e.isTurn = false ∧ e.overtakes = false) (s : σ) :
    ∃ (d : Completion) (w : σ), after t convert es (c, s) = (d, w) ∧ d.Waits r ∧
      ((∀ e ∈ es, e.converts = false) → w = s) := by
  induction es generalizing c s with
  | nil => exact ⟨c, s, rfl, h, fun _ => rfl⟩
  | cons e es ih =>
    obtain ⟨hturn, he⟩ := hes e (List.mem_cons_self ..)
    obtain ⟨d, w, hstep, hd, hw⟩ := @Waits.step _ t convert c r h e hturn he s
    obtain ⟨d', w', hafter, hd', hw'⟩ := ih hd (fun f hf => hes f (List.mem_cons_of_mem _ hf)) w
    rw [after_cons, hstep]
    refine ⟨d', w', hafter, hd', fun hconverts => ?_⟩
    rw [hw' fun f hf => hconverts f (List.mem_cons_of_mem _ hf)]
    exact hw (hconverts e (List.mem_cons_self ..))

/-! ### Whole courses -/

variable {front es back : List Event} {u : σ}

theorem after_front (hfront : ∀ e ∈ front, e.isFinal = false) :
    ∃ c : Completion, after t convert front (empty, s) = (c, s) ∧ c.Unanswered :=
  after_of_unanswered ⟨rfl, rfl⟩ hfront s

/-- Where there is no answer yet, a final signal on the loop is the answer. -/
theorem answers_onLoop (hes : after t convert es (empty, s) = (c, u)) (hc : c.answer = none)
    (hg : c.Decides t convert g u r w) :
    Answers t convert s (es ++ .signal .onLoop g :: back) r w := by
  have hstep : step t convert (c, u) (.signal .onLoop g) = (c.resolve .onLoop r, w) := by
    simp only [step, report_of_decides hc hg]
  have hanswer : (c.resolve .onLoop r).answer = some r := by
    simp only [resolve, settle, hc]
  rw [Answers, after_append, hes, after_cons, hstep]
  exact after_of_answered hanswer back w

theorem Answers.unique {r' : LooseResult} {w' : σ} (h : Answers t convert s es r w)
    (h' : Answers t convert s es r' w') : r = r' ∧ w = w' := by
  obtain ⟨d, hd, hr⟩ := h
  obtain ⟨d', hd', hr'⟩ := h'
  rw [hd] at hd'
  cases hd'
  exact ⟨Option.some.inj (hr.symm.trans hr'), rfl⟩

/-- A result that waits for the loop is the answer once the loop has turned. -/
theorem answers_turn (hes : after t convert es (empty, s) = (c, w)) (hc : c.Waits r) :
    Answers t convert s (es ++ .turn :: back) r w := by
  rw [Answers, after_append, hes, after_cons]
  exact after_of_answered (answer_turn_of_waits hc) back w

/-- Beside the loop, what the first final signal comes to waits first in the queue. -/
theorem after_besideLoop (hes : after t convert front (empty, s) = (c, s)) (hc : c.Unanswered)
    (hg : c.Decides t convert g s r w) :
    ∃ d : Completion, after t convert (front ++ [.signal .besideLoop g]) (empty, s) = (d, w) ∧
      d.Waits r := by
  have hstep : step t convert (c, s) (.signal .besideLoop g) = (c.resolve .besideLoop r, w) := by
    simp only [step, report_of_decides hc.answer hg]
  refine ⟨c.resolve .besideLoop r, ?_, hc.answer, ?_⟩
  · rw [after_append, hes, after_cons, hstep]
    rfl
  · show (c.queue ++ [r]).head? = some r
    rw [hc.queue]
    rfl

/-! ## Top theorems -/

/-- Which signal answers, for every course of events.  On the loop the first final signal answers, and
no later one changes the answer or has the value converted.  Beside the loop it answers if the loop turns
before a final signal arrives on it; and no later one has the value converted, unless a driver finishes
before that turn.  A final signal that arrives on the loop before that turn answers itself. -/
theorem first_signal_decides (t : Subject) (convert : Converter σ) (hconvert : convert.Tame)
    (front : List Event) (hfront : ∀ e ∈ front, e.isFinal = false)
    (g : Signal) (hg : g.isFinal = true) (s : σ) :
    ∃ r w, (after t convert front (empty, s)).1.Decides t convert g s r w ∧
      (∀ back, Answers t convert s (front ++ .signal .onLoop g :: back) r w) ∧
      ∀ mid, (∀ e ∈ mid, e.isTurn = false ∧ e.overtakes = false) →
        (∀ back, ∃ w', Answers t convert s (front ++ .signal .besideLoop g :: mid ++ .turn :: back) r w' ∧
          ((∀ e ∈ mid, e.converts = false) → w' = w)) ∧
        (∀ g' back, g'.isFinal = true → ∃ r' w',
          (after t convert (front ++ .signal .besideLoop g :: mid) (empty, s)).1.Decides t convert g'
            (after t convert (front ++ .signal .besideLoop g :: mid) (empty, s)).2 r' w' ∧
          Answers t convert s (front ++ .signal .besideLoop g :: mid ++ .signal .onLoop g' :: back)
            r' w') := by
  obtain ⟨c, hc, hunanswered⟩ := @after_front _ t convert s front hfront
  obtain ⟨r, w, hdecides⟩ := exists_decides (t := t) hconvert hg c s
  obtain ⟨d, hd, hwaits⟩ := after_besideLoop hc hunanswered hdecides
  refine ⟨r, w, ?_, fun back => answers_onLoop hc hunanswered.answer hdecides, fun mid hmid => ?_⟩
  · rw [hc]
    exact hdecides
  · obtain ⟨d', w', hmid', hwaits', hworld⟩ := @after_of_waits _ t convert d r hwaits mid hmid w
    have hafter : after t convert (front ++ .signal .besideLoop g :: mid) (empty, s) = (d', w') := by
      rw [List.append_cons, after_append, hd, hmid']
    refine ⟨fun back => ⟨w', answers_turn hafter hwaits', hworld⟩, fun g' back hg' => ?_⟩
    obtain ⟨r', w'', hdecides'⟩ := exists_decides (t := t) hconvert hg' d' w'
    refine ⟨r', w'', ?_, answers_onLoop hafter hwaits'.answer hdecides'⟩
    rw [hafter]
    exact hdecides'

/-- Keeps the value, and counts how often it has been called. -/
def counting : Converter Nat := fun v n => .ok (.inl (.ok v)) (n + 1)

/-- Nothing is known about what is asked for. -/
def unnamed : Subject := ⟨none, none⟩

/-- What a driver fails with. -/
def refused : Fault := .foreign .runtime (some (.text "refused")) 0

/-- A value and the end of the driver arrive beside the loop, then a cancellation before the loop turns,
and an error on the loop after that: the value is the answer, and it has been converted once. -/
theorem finished_answers :
    Answers unnamed counting 0
      ([.signal .besideLoop (.value (.text "v"))] ++ .signal .besideLoop .finished ::
        [.signal .besideLoop .cancelled] ++ .turn :: [.signal .onLoop (.failed refused)])
      (.inl (.ok (.text "v"))) 1 := by
  have htame : counting.Tame := nofun
  obtain ⟨r, w, hdecides, -, hmid⟩ := first_signal_decides unnamed counting htame
    [.signal .besideLoop (.value (.text "v"))] (by decide) .finished rfl 0
  obtain ⟨hturn, -⟩ := hmid [.signal .besideLoop .cancelled] (by decide)
  obtain ⟨w', hanswers, hworld⟩ := hturn [.signal .onLoop (.failed refused)]
  have hkept : w' = w := hworld (by decide)
  subst hkept
  cases hdecides with
  | finished h =>
    cases h
    exact hanswers

/-- An error arrives beside the loop, and a cancellation on it before the loop turns. -/
def overtaking : List Event :=
  [.signal .besideLoop (.failed refused), .signal .onLoop .cancelled, .turn]

/-- A driver reports a value and finishes, both beside the loop, and finishes again. -/
def finishingTwice : List Event := [.signal .besideLoop (.value (.text "v")),
  .signal .besideLoop .finished, .signal .besideLoop .finished, .turn]

/-- A late signal may answer instead of the first final one, and may have the value converted again. -/
theorem late_signals_count :
    (Answers unnamed counting 0 overtaking (.inl (.error unnamed.cancellation)) 0 ∧
      ∀ f, unnamed.failure refused = .ok f →
        ¬ Answers unnamed counting 0 overtaking (.inl (.error f)) 0) ∧
    (Answers unnamed counting 0 finishingTwice (.inl (.ok (.text "v"))) 2 ∧
      ¬ Answers unnamed counting 0 finishingTwice (.inl (.ok (.text "v"))) 1) := by
  have hcancelled : Answers unnamed counting 0 overtaking (.inl (.error unnamed.cancellation)) 0 :=
    ⟨_, rfl, rfl⟩
  have htwice : Answers unnamed counting 0 finishingTwice (.inl (.ok (.text "v"))) 2 := ⟨_, rfl, rfl⟩
  refine ⟨⟨hcancelled, fun f hf h => ?_⟩, htwice, fun h => ?_⟩
  · have hrefused : refused.hasMessage = true := Fault.hasMessage_text ..
    rw [Subject.failure_of_ordinary _ rfl hrefused] at hf
    cases hf
    cases (hcancelled.unique h).1
  · exact absurd (htwice.unique h).2 (by decide)

end Completion

end CasStore
