import CasStore.Proofs.Composition

/-!
# Laws of recovery

Stages on the side of failure are grouped as freely as those on the side of success.  A handler behind a
known error is the program that it answers with; one that fails again with its error may be left out;
handlers that always answer with programs may stand one behind the other or one inside the other; and
two mending stages are one.  After a recovery the stages still to come run as if the program that the
handler answered with had been there from the start.

    what a stage gets to see bears a mark                            (seenThrough_congr_marked)
    (m.orElse f).orElse g runs as m.orElse (guarded f g)             (seenThrough_guarded)
    (m.mapErr f).mapErr g runs as m.mapErr (mended f g)              (seenThrough_mended)
    a recovered program goes on as the program it recovered with     (Program.observe_recovered)
    all of the laws                                                  (recovery_laws)

An error is an object of its own, which its mark stands for: the caller's errors bear marks from the
start, and one that arises in a run is marked when a stage or the caller first sees it.
-/

namespace CasStore

variable {σ : Type}

/-! ## Algorithm -/

namespace Program

/-- A handler that fails with its error again. -/
def refailing : Fault → σ → Reply σ (Next (Program σ)) := fun e s => .ok (.program (fail e)) s

/-- A handler that adds a stage to the program that `f` answers with; to another value none can be
added. -/
def guarded (f : Fault → σ → Reply σ (Next (Program σ))) (st : Stage (Root σ) σ) :
    Fault → σ → Reply σ (Next (Program σ)) := fun e s =>
  match f e s with
  | .ok (.program p) s => .ok (.program (p.append st)) s
  | .ok (.value w) s => .error (Fault.noPart w st.kind.name) s
  | .error x s => .error x s

/-- One mending function after the other. -/
def mended (f g : Fault → σ → Reply σ Fault) : Fault → σ → Reply σ Fault := fun e s =>
  match f e s with
  | .ok e' s => g e' s
  | .error x s => .error x s

/-- A handler answers with a program whatever the error. -/
def Handles (f : Fault → σ → Reply σ (Next (Program σ))) : Prop :=
  ∀ e s, ∃ p t, f e s = .ok (.program p) t

/-- A mending function never raises: for an error that bears a mark it answers with one that does. -/
def Mends (f : Fault → σ → Reply σ Fault) : Prop :=
  ∀ e s, e.serial ≠ 0 → ∃ e' t, f e s = .ok e' t ∧ e'.serial ≠ 0

/-- `p` with more stages. -/
def withStages (p : Program σ) (ss : List (Stage (Root σ) σ)) : Program σ :=
  .mk p.root (p.stages ++ ss)

end Program

/-- If the result is an error, it bears a mark. -/
def Result.Marked : Result → Prop
  | .ok _ => True
  | .error e => e.serial ≠ 0

/-! ## Lemmas -/

/-! ### Marks -/

theorem Run.serial_marking (e : Fault) (s : Run σ) : (Run.marking e s).1.serial ≠ 0 := by
  by_cases h : e.serial = 0
  · rw [Run.marking, if_pos h]
    cases e <;> simp [Fault.mark, Fault.serial]
  · rw [Run.marking_of_marked h]
    exact h

/-- What has been looked at bears a mark. -/
theorem marked_of_asResult {r : LooseResult} {r' : Result} {s t : Run σ} (h : asResult r s = .ok r' t) :
    r'.Marked := by
  match r with
  | .inr v => cases h
  | .inl (.ok v) => cases h; trivial
  | .inl (.error e) => cases h; exact Run.serial_marking e s

/-- Looking at an error that bears a mark changes nothing. -/
theorem asResult_of_marked {e : Fault} (h : e.serial ≠ 0) (s : Run σ) :
    asResult (.inl (.error e)) s = .ok (.error e) s := by
  show EStateM.Result.ok (Except.error (Run.marking e s).1) (Run.marking e s).2 = _
  rw [Run.marking_of_marked h]

section

variable {b : Backend σ}

/-- What is seen through stages is decided by what the first of them makes of results that bear marks. -/
theorem seenThrough_congr_marked {st st' : Stage (Root σ) σ} {ss ss' : List (Stage (Root σ) σ)}
    (h : ∀ r : Result, r.Marked → (evaluateStage (Root.call b) st r >>= seenThrough b ss) =
      (evaluateStage (Root.call b) st' r >>= seenThrough b ss')) (r : LooseResult) :
    seenThrough b (st :: ss) r = seenThrough b (st' :: ss') r := by
  rw [seenThrough_cons, seenThrough_cons]
  funext s
  exact bind_congr_of_ok rfl fun r' t hr' => congrFun (h r' (marked_of_asResult hr')) t

/-! ### Handlers and mending stages -/

/-- A handler that fails with its error again may be left out. -/
theorem seenThrough_refailing (r : LooseResult) :
    seenThrough b [.orElse Program.refailing] r = seenThrough b [] r :=
  seenThrough_idle (fun r => by cases r <;> rfl) r

/-- A stage on failures behind a handler may as well stand in the program that handles. -/
theorem seenThrough_guarded {f : Fault → σ → Reply σ (Next (Program σ))} (hf : Program.Handles f)
    (st : Stage (Root σ) σ) (hst : st.kind.onSuccess = false) (r : LooseResult) :
    seenThrough b [.orElse f, st] r = seenThrough b [.orElse (Program.guarded f st)] r := by
  refine seenThrough_congr (fun r => ?_) r
  funext s
  cases r with
  | ok v =>
    have hskip : seenThrough b [st] (.inl (.ok v)) = seenThrough b [] (.inl (.ok v)) :=
      seenThrough_skip (by rw [hst]; exact Bool.noConfusion) []
    exact congrFun hskip s
  | error e =>
    obtain ⟨p, w, hcalled⟩ := hf e s.world
    have hguarded : Program.guarded f st e s.world = .ok (.program (p.append st)) w := by
      simp only [Program.guarded, hcalled]
    show (evaluateReply (Root.call b) .orElse (f e s.world) >>= seenThrough b [st]) s =
      (evaluateReply (Root.call b) .orElse (Program.guarded f st e s.world) >>= seenThrough b []) s
    rw [hcalled, hguarded]
    exact (congrFun (Program.evaluate_append_seen p st) _).symm

/-- Two mending stages are one. -/
theorem seenThrough_mended {f : Fault → σ → Reply σ Fault} (hf : Program.Mends f)
    (g : Fault → σ → Reply σ Fault) (r : LooseResult) :
    seenThrough b [.mapErr f, .mapErr g] r = seenThrough b [.mapErr (Program.mended f g)] r := by
  refine seenThrough_congr_marked (fun r hr => ?_) r
  funext s
  cases r with
  | ok v =>
    have hskip : seenThrough b [.mapErr g] (.inl (.ok v)) = seenThrough b [] (.inl (.ok v)) :=
      seenThrough_skip Bool.noConfusion []
    exact congrFun hskip s
  | error e =>
    obtain ⟨e', w, hcalled, hmark⟩ := hf e s.world hr
    have hfirst : caught .mapErr (Result.mapErr (.error e) f) s =
        .ok (.inl (.error e')) { s with world := w } := by
      simp only [caught, Run.onWorld, Result.mapErr, hcalled]
    have hboth : caught .mapErr (Result.mapErr (.error e) (Program.mended f g)) s =
        caught .mapErr (Result.mapErr (.error e') g) { s with world := w } := by
      simp only [caught, Run.onWorld, Result.mapErr, Program.mended, hcalled]
    show (caught .mapErr (Result.mapErr (.error e) f) >>= seenThrough b [.mapErr g]) s =
      (caught .mapErr (Result.mapErr (.error e) (Program.mended f g)) >>= seenThrough b []) s
    -- the error between the stages bears a mark already, so that looking at it leaves no trace
    rw [bind_of_ok hfirst, seenThrough_cons, bind_of_ok (asResult_of_marked hmark _)]
    exact bind_congr_of_ok hboth.symm fun _ _ _ => rfl

/-! ### Recovered programs -/

/-- A program with more stages is seen as the program is through these stages. -/
theorem Program.observe_withStages {s : Run σ} (hs : b.ConnectedIn s) (p : Program σ)
    (ss : List (Stage (Root σ) σ)) :
    (p.withStages ss).observe b s = (Program.evaluate b p >>= seenThrough b ss) s := by
  obtain ⟨root, stages⟩ := p
  have hsplit := Program.evaluate_mk_append b root stages ss
  rw [Program.observe, Program.execute_eq_whenConnected, Backend.whenConnected, bind_assoc,
    bind_of_ok hs]
  simp only [if_true]
  rw [Program.withStages, Pipeline.root, Pipeline.stages, hsplit, bind_assoc]
  rfl

theorem Program.withStages_nil (p : Program σ) : p.withStages [] = p := by
  obtain ⟨root, stages⟩ := p
  rw [withStages, List.append_nil]
  rfl

theorem Program.append_withStages (p : Program σ) (st : Stage (Root σ) σ)
    (ss : List (Stage (Root σ) σ)) : Program.withStages (p.append st) ss = p.withStages (st :: ss) :=
  congrArg (Pipeline.mk p.root) (List.append_assoc p.stages [st] ss)

/-- Once a handler has answered with a program, the stages still to come run as if that program had
been there from the start. -/
theorem Program.observe_recovered {m p : Program σ} {h : Fault → σ → Reply σ (Next (Program σ))}
    {e : Fault} {s t : Run σ} {w : σ} (hm : m.observe b s = .ok (.error e) t)
    (hh : h e t.world = .ok (.program p) w) (hbefore : b.ConnectedIn s)
    (hafter : b.ConnectedIn { t with world := w }) (ss : List (Stage (Root σ) σ)) :
    ((m.orElse h).withStages ss).observe b s = (p.withStages ss).observe b { t with world := w } := by
  have hseen : (Program.evaluate b m >>= asResult) s = .ok (.error e) t := by
    have hplain := observe_withStages hbefore m []
    rw [withStages_nil, hm] at hplain
    rw [hplain]
    exact congrFun (congrArg (Program.evaluate b m >>= ·) (funext fun r => (seenThrough_nil r).symm)) s
  rw [orElse, append_withStages, observe_withStages hbefore, observe_withStages hafter]
  have hcons : (Program.evaluate b m >>= seenThrough b (.orElse h :: ss)) s =
      ((Program.evaluate b m >>= asResult) >>= fun r =>
        evaluateStage (Root.call b) (.orElse h) r >>= seenThrough b ss) s := by
    rw [bind_assoc, funext (seenThrough_cons (.orElse h) ss)]
  rw [hcons, bind_of_ok hseen]
  show (evaluateReply (Root.call b) .orElse (h e t.world) >>= seenThrough b ss) t = _
  rw [hh]
  rfl

/-- Behind a known error, a handler runs as the program that it answers with. -/
theorem Program.execute_fail_orElse {h : Fault → σ → Reply σ (Next (Program σ))} {e : Fault}
    {p : Program σ} {s : Run σ} {w : σ} (hh : h (Run.marking e s).1 s.world = .ok (.program p) w)
    (hbefore : b.ConnectedIn s) (hafter : b.ConnectedIn { (Run.marking e s).2 with world := w }) :
    ((Program.fail e).orElse h).execute b s =
      p.execute b { (Run.marking e s).2 with world := w } := by
  have hevaluate : Program.evaluate b ((Program.fail e).orElse h) s =
      evaluateReply (Root.call b) .orElse (h (Run.marking e s).1 (Run.marking e s).2.world)
        (Run.marking e s).2 :=
    congrFun (bind_pure (m := Call (Run σ)) fun t =>
      evaluateReply (Root.call b) .orElse (h (Run.marking e s).1 t.world) t) (Run.marking e s).2
  rw [Program.execute_eq_whenConnected, Program.execute_eq_whenConnected, Backend.whenConnected,
    Backend.whenConnected, bind_of_ok hbefore, bind_of_ok hafter]
  simp only [if_true]
  rw [hevaluate, Run.world_marking, hh]
  rfl

end

/-! ## Top theorems -/

/-- The laws of recovery, for every backend, every program and all functions: a handler behind a known
error runs as the program that it answers with, one that fails with its error again may be left out,
handlers that always answer with programs may be regrouped, two mending stages are one, and after a
recovery all further stages run as behind the program that the handler answered with. -/
theorem recovery_laws (b : Backend σ) :
    (∀ (e : Fault) (h : Fault → σ → Reply σ (Next (Program σ))) (p : Program σ) (s : Run σ) (w : σ),
      h (Run.marking e s).1 s.world = .ok (.program p) w → b.ConnectedIn s →
      b.ConnectedIn { (Run.marking e s).2 with world := w } →
      ((Program.fail e).orElse h).execute b s =
        p.execute b { (Run.marking e s).2 with world := w }) ∧
    (∀ m : Program σ, Program.SameOn b (m.orElse Program.refailing) m) ∧
    (∀ (m : Program σ) (f g : Fault → σ → Reply σ (Next (Program σ))), Program.Handles f →
      Program.SameOn b ((m.orElse f).orElse g) (m.orElse (Program.guarded f (.orElse g)))) ∧
    (∀ (m : Program σ) (f g : Fault → σ → Reply σ Fault), Program.Mends f →
      Program.SameOn b ((m.mapErr f).mapErr g) (m.mapErr (Program.mended f g))) ∧
    (∀ (m p : Program σ) (h : Fault → σ → Reply σ (Next (Program σ)))
      (k : Value → σ → Reply σ (Next (Program σ))) (ss : List (Stage (Root σ) σ)) (e : Fault)
      (s t : Run σ) (w : σ),
      m.observe b s = .ok (.error e) t → h e t.world = .ok (.program p) w → b.ConnectedIn s →
      b.ConnectedIn { t with world := w } →
      (((m.orElse h).andThen k).withStages ss).observe b s =
        ((p.andThen k).withStages ss).observe b { t with world := w }) := by
  refine ⟨fun e h p s w => Program.execute_fail_orElse, fun m => ?_, fun m f g hf => ?_,
    fun m f g hf => ?_, fun m p h k ss e s t w hm hh hbefore hafter => ?_⟩
  · obtain ⟨root, stages⟩ := m
    have h := Program.sameOn_of_seen (b := b) root stages seenThrough_refailing
    rw [List.append_nil] at h
    exact h
  · have h := Program.sameOn_of_seen (b := b) m.root m.stages
      (seenThrough_guarded hf (.orElse g) rfl)
    rw [List.append_cons] at h
    exact h
  · have h := Program.sameOn_of_seen (b := b) m.root m.stages (seenThrough_mended hf g)
    rw [List.append_cons] at h
    exact h
  · rw [Program.andThen, Program.andThen, Program.append_withStages, Program.append_withStages]
    exact Program.observe_recovered hm hh hbefore hafter (.andThen k :: ss)

/-- A handler that creates the document that was looked for. -/
def restoring : Fault → Store → Reply Store (Next (Program Store)) :=
  fun _ s => .ok (.program (.command (.create .a "x"))) s

/-- A mending function that enters where the error was met. -/
def located : Fault → Store → Reply Store Fault :=
  fun e s => .ok (e.within [("command", .text "look")]) s

/-- A look at a document that is missing is recovered from by creating it, and the stages behind go on
as behind the creation. -/
theorem missing_document_restored :
    (Store.backend Slot.whole).ConnectedIn (Run.start ⟨.empty, 0⟩) ∧
    ((Program.fail (Fault.notConnected.mark 2)).orElse restoring).execute (Store.backend Slot.whole)
        (Run.start ⟨.empty, 0⟩) =
      (Program.command (.create .a "x")).execute (Store.backend Slot.whole)
        (Run.start ⟨.empty, 0⟩) ∧
    Program.Handles restoring ∧
    Program.SameOn (Store.backend Slot.whole) ((look.orElse restoring).orElse restoring)
      (look.orElse (Program.guarded restoring (.orElse restoring))) ∧
    Program.Mends located ∧
    Program.SameOn (Store.backend Slot.whole) ((look.mapErr located).mapErr located)
      (look.mapErr (Program.mended located located)) ∧
    ∃ e t, look.observe (Store.backend Slot.whole) (Run.start ⟨.empty, 0⟩) = .ok (.error e) t ∧
      (((look.orElse restoring).andThen recovering).withStages []).observe (Store.backend Slot.whole)
          (Run.start ⟨.empty, 0⟩) =
        (((Program.command (.create .a "x")).andThen recovering).withStages []).observe
          (Store.backend Slot.whole) t := by
  obtain ⟨hfail, -, hregroup, hmended, hrecovered⟩ := recovery_laws (Store.backend Slot.whole)
  have hhandles : Program.Handles restoring := fun e s => ⟨_, _, rfl⟩
  have hmends : Program.Mends located := fun e s he => ⟨_, _, rfl, by cases e <;> exact he⟩
  have hlook : ∃ e t, look.observe (Store.backend Slot.whole) (Run.start ⟨.empty, 0⟩) =
      .ok (.error e) t := by
    have h := Program.observe_withStages (b := Store.backend Slot.whole) (s := Run.start ⟨.empty, 0⟩)
      rfl look []
    rw [Program.withStages_nil] at h
    exact ⟨_, _, h.trans rfl⟩
  obtain ⟨e, t, hlook⟩ := hlook
  refine ⟨rfl, hfail _ _ _ _ _ rfl rfl rfl, hhandles, hregroup _ _ _ hhandles, hmends,
    hmended _ _ _ hmends, e, t, hlook, hrecovered _ _ _ _ _ _ _ _ _ hlook rfl rfl rfl⟩

end CasStore
