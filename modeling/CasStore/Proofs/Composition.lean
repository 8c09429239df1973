import CasStore.Proofs.Evaluation
import CasStore.Proofs.Versions
import CasStore.Store.Backend

/-!
# Laws of composition

Programs are composed by adding stages, and how stages on the side of success are grouped makes no
difference to what is executed.  A binding stage behind a known value is the program that it answers
with; one that answers with its value again may be left out; binding stages may stand one behind the
other or one inside the other; and two transforming stages are one.

    a stage of the other side may be left out                        (seenThrough_skip)
    (m.andThen f).andThen g runs as m.andThen (extended f g)         (seenThrough_extended)
    (m.map f).map g runs as m.map (composed f g)                     (seenThrough_composed)
    all of the laws                                                  (monad_laws)

Programs run alike if whoever looks at their results sees the same.  An error is marked when it is
looked at for the first time, and a stage looks at it; so only results that have been looked at can be
compared.  Backends and functions act on one world and are free to keep a record in it of how they were
called: programs that run alike also make the same calls in the same order.
-/

namespace CasStore

variable {σ : Type}

/-! ## Algorithm -/

/-- The backend is connected in `s`, and asking for that changes nothing. -/
def Backend.ConnectedIn (b : Backend σ) (s : Run σ) : Prop := b.isConnected s = .ok true s

namespace Program

/-- Executes a program and looks at its result; what is no result cannot be looked at. -/
def observe (b : Backend σ) (p : Program σ) : Call (Run σ) Result := p.execute b >>= asResult

/-- On `b` the programs run alike, whatever the run they start from. -/
def SameOn (b : Backend σ) (p q : Program σ) : Prop := p.observe b = q.observe b

/-- A binding function that answers with its value again. -/
def returning : Value → σ → Reply σ (Next (Program σ)) := fun v s => .ok (.program (pure v)) s

/-- A binding function that adds a stage to the program that `f` answers with; to another value none
can be added. -/
def extended (f : Value → σ → Reply σ (Next (Program σ))) (st : Stage (Root σ) σ) :
    Value → σ → Reply σ (Next (Program σ)) := fun v s =>
  match f v s with
  | .ok (.program p) s => .ok (.program (p.append st)) s
  | .ok (.value w) s => .error (Fault.noPart w st.kind.name) s
  | .error e s => .error e s

/-- One transforming function after the other. -/
def composed (f g : Value → σ → Reply σ Value) : Value → σ → Reply σ Value := fun v s =>
  match f v s with
  | .ok w s => g w s
  | .error e s => .error e s

/-- A binding function answers with programs only, where it does not raise. -/
def Binds (f : Value → σ → Reply σ (Next (Program σ))) : Prop :=
  ∀ v s w t, f v s ≠ .ok (.value w) t

end Program

/-- A result put through stages, and then looked at. -/
def seenThrough (b : Backend σ) (ss : List (Stage (Root σ) σ)) (r : LooseResult) :
    Call (Run σ) Result := evaluateStages (Root.call b) ss r >>= asResult

/-! ## Lemmas -/

/-! ### Looking at results -/

theorem Run.marking_marking (e : Fault) (s : Run σ) :
    Run.marking (Run.marking e s).1 (Run.marking e s).2 = Run.marking e s := by
  by_cases h : e.serial = 0
  · refine Run.marking_of_marked ?_ _
    rw [Run.marking, if_pos h]
    cases e <;> simp [Fault.mark, Fault.serial]
  · rw [Run.marking_of_marked h, Run.marking_of_marked h]

/-- What has been looked at is looked at again as it is. -/
theorem asResult_asResult (r : LooseResult) :
    (asResult r >>= fun r => asResult (.inl r) : Call (Run σ) Result) = asResult r := by
  funext s
  match r with
  | .inr v => rfl
  | .inl (.ok v) => rfl
  | .inl (.error e) =>
    show EStateM.Result.ok (Except.error (Run.marking (Run.marking e s).1 (Run.marking e s).2).1)
      (Run.marking (Run.marking e s).1 (Run.marking e s).2).2 = _
    rw [Run.marking_marking]
    rfl

section

variable {b : Backend σ}

theorem seenThrough_nil (r : LooseResult) : seenThrough b [] r = asResult r := by
  rw [seenThrough, evaluateStages]
  exact pure_bind _ _

theorem seenThrough_cons (st : Stage (Root σ) σ) (ss : List (Stage (Root σ) σ)) (r : LooseResult) :
    seenThrough b (st :: ss) r =
      asResult r >>= fun r => evaluateStage (Root.call b) st r >>= seenThrough b ss := by
  rw [seenThrough, evaluateStages]
  exact (bind_assoc _ _ _).trans (bind_assoc _ _ _)

/-- It makes no difference to stages whether a result has been looked at before. -/
theorem asResult_seenThrough (ss : List (Stage (Root σ) σ)) (r : LooseResult) :
    (asResult r >>= fun r => seenThrough b ss (.inl r)) = seenThrough b ss r := by
  cases ss with
  | nil =>
    simp only [seenThrough_nil]
    exact asResult_asResult r
  | cons st ss =>
    simp only [seenThrough_cons]
    rw [← bind_assoc, asResult_asResult]

theorem evaluateStage_skip {st : Stage (Root σ) σ} {r : Result} (h : st.kind.onSuccess ≠ r.isOk) :
    evaluateStage (Root.call b) st r = pure (.inl r) := by
  cases st <;> cases r <;> first | rfl | exact absurd rfl h

/-- Looking at a result leaves it on its side. -/
theorem asResult_bind_congr {α : Type} {r : Result} {k k' : Result → Call (Run σ) α}
    (h : ∀ r' : Result, r'.isOk = r.isOk → k r' = k' r') :
    asResult (.inl r) >>= k = asResult (.inl r) >>= k' := by
  funext s
  cases r with
  | ok v => exact congrFun (h (.ok v) rfl) s
  | error e =>
    exact congrFun (h (.error (Run.marking e s).1) rfl) (Run.marking e s).2

/-- A stage that acts on the other side than the result's may be left out. -/
theorem seenThrough_skip {st : Stage (Root σ) σ} {r : Result} (h : st.kind.onSuccess ≠ r.isOk)
    (ss : List (Stage (Root σ) σ)) : seenThrough b (st :: ss) (.inl r) = seenThrough b ss (.inl r) := by
  rw [seenThrough_cons, ← asResult_seenThrough ss]
  refine asResult_bind_congr fun r' hr' => ?_
  rw [evaluateStage_skip (hr' ▸ h)]
  exact pure_bind _ _

theorem seenThrough_ok (v : Value) (st : Stage (Root σ) σ) (ss : List (Stage (Root σ) σ)) :
    seenThrough b (st :: ss) (.inl (.ok v)) = evaluateStage (Root.call b) st (.ok v) >>= seenThrough b ss := by
  rw [seenThrough_cons]
  exact pure_bind (m := Call (Run σ)) _ _

/-! ### Stages in programs -/

theorem Backend.whenConnected_bind {work work' : Call (Run σ) LooseResult}
    {k : LooseResult → Call (Run σ) Result} (h : work >>= k = work' >>= k) :
    b.whenConnected work >>= k = b.whenConnected work' >>= k := by
  rw [Backend.whenConnected, Backend.whenConnected, bind_assoc, bind_assoc]
  congr 1
  funext connected
  cases connected with
  | true => exact h
  | false => rfl

/-- Programs run alike if they do so behind what they have in common. -/
theorem Program.sameOn_of_seen (root : Root σ) (common : List (Stage (Root σ) σ))
    {front back : List (Stage (Root σ) σ)} (h : ∀ r, seenThrough b front r = seenThrough b back r) :
    Program.SameOn b (.mk root (common ++ front)) (.mk root (common ++ back)) := by
  rw [Program.SameOn, Program.observe, Program.observe, Program.execute_eq_whenConnected,
    Program.execute_eq_whenConnected]
  refine Backend.whenConnected_bind ?_
  rw [Program.evaluate_mk_append, Program.evaluate_mk_append, bind_assoc, bind_assoc]
  exact congrArg (Program.evaluate b (.mk root common) >>= ·) (funext h)

/-- What is seen through stages is decided by what the first of them makes of results. -/
theorem seenThrough_congr {st st' : Stage (Root σ) σ} {ss ss' : List (Stage (Root σ) σ)}
    (h : ∀ r : Result, (evaluateStage (Root.call b) st r >>= seenThrough b ss) =
      (evaluateStage (Root.call b) st' r >>= seenThrough b ss')) (r : LooseResult) :
    seenThrough b (st :: ss) r = seenThrough b (st' :: ss') r := by
  rw [seenThrough_cons, seenThrough_cons]
  exact congrArg (asResult r >>= ·) (funext h)

/-- A program with one more stage is seen as the program is through that stage. -/
theorem Program.evaluate_append_seen (p : Program σ) (st : Stage (Root σ) σ) :
    Program.evaluate b (p.append st) >>= seenThrough b [] =
      Program.evaluate b p >>= seenThrough b [st] := by
  obtain ⟨root, ss⟩ := p
  have hsplit := Program.evaluate_mk_append b root ss [st]
  rw [Pipeline.append, Pipeline.root, Pipeline.stages, hsplit, bind_assoc]
  congr 1

/-- A stage that makes every result of itself may be left out. -/
theorem seenThrough_idle {st : Stage (Root σ) σ}
    (h : ∀ r : Result, evaluateStage (Root.call b) st r = pure (.inl r))
    (r : LooseResult) : seenThrough b [st] r = seenThrough b [] r := by
  rw [seenThrough_cons, ← asResult_seenThrough]
  refine congrArg (asResult r >>= ·) (funext fun r => ?_)
  rw [h]
  exact pure_bind _ _

/-- A binding stage that answers with its value again may be left out. -/
theorem seenThrough_returning (r : LooseResult) :
    seenThrough b [.andThen Program.returning] r = seenThrough b [] r :=
  seenThrough_idle (fun r => by cases r <;> rfl) r

/-- A stage whose function raises comes to a failure, where it comes to anything. -/
theorem raisedBy_eq_ok {kind : StageKind} {e : Fault} {r : LooseResult} {s t : Run σ}
    (h : raisedBy kind e s = .ok r t) : ∃ g, r = .inl (.error g) := by
  unfold raisedBy stageRaised at h
  cases ho : e.isOrdinary with
  | false => simp only [ho] at h; cases h
  | true =>
    simp only [ho, if_true] at h
    cases hf : stageFailure kind e with
    | ok f => rw [hf] at h; cases h; exact ⟨f, rfl⟩
    | error g => rw [hf] at h; cases h

theorem evaluateReply_of_raised {kind : StageKind} {e : Fault} {w : σ} {r : LooseResult} {s t : Run σ}
    (h : evaluateReply (Root.call b) kind (.error e w) s = .ok r t) : ∃ g, r = .inl (.error g) := by
  rw [evaluateReply] at h
  exact raisedBy_eq_ok h

theorem caught_of_raised {kind : StageKind} {c : σ → Reply σ Result} {e : Fault} {w : σ}
    {r : LooseResult} {s t : Run σ} (hc : c s.world = .error e w) (h : caught kind c s = .ok r t) :
    ∃ g, r = .inl (.error g) := by
  simp only [caught, Run.onWorld, hc] at h
  exact raisedBy_eq_ok h

/-- A stage on successes behind a binding stage may as well stand in the program that is bound. -/
theorem seenThrough_extended {f : Value → σ → Reply σ (Next (Program σ))} (hf : Program.Binds f)
    (st : Stage (Root σ) σ) (hst : st.kind.onSuccess = true) (r : LooseResult) :
    seenThrough b [.andThen f, st] r = seenThrough b [.andThen (Program.extended f st)] r := by
  have hskip : ∀ e : Fault, seenThrough b [st] (.inl (.error e)) = seenThrough b [] (.inl (.error e)) :=
    fun e => seenThrough_skip (by rw [hst]; exact Bool.noConfusion) []
  refine seenThrough_congr (fun r => ?_) r
  funext s
  cases r with
  | error e => exact congrFun (hskip e) s
  | ok v =>
    show (evaluateReply (Root.call b) .andThen (f v s.world) >>= seenThrough b [st]) s =
      (evaluateReply (Root.call b) .andThen (Program.extended f st v s.world) >>= seenThrough b []) s
    unfold Program.extended
    match hcalled : f v s.world with
    | .ok (.program p) w => exact (congrFun (Program.evaluate_append_seen p st) _).symm
    | .ok (.value u) w => exact absurd hcalled (hf _ _ _ _)
    | .error e w =>
      -- the stage in the program is never reached, the one behind it is skipped
      refine bind_congr_of_ok rfl fun r t hr => ?_
      obtain ⟨g, rfl⟩ := evaluateReply_of_raised hr
      exact congrFun (hskip g) t

/-- Two transforming stages are one. -/
theorem seenThrough_composed (f g : Value → σ → Reply σ Value) (r : LooseResult) :
    seenThrough b [.map f, .map g] r = seenThrough b [.map (Program.composed f g)] r := by
  have hskip : ∀ e : Fault,
      seenThrough b [.map g] (.inl (.error e)) = seenThrough b [] (.inl (.error e)) :=
    fun e => seenThrough_skip Bool.noConfusion []
  refine seenThrough_congr (fun r => ?_) r
  funext s
  cases r with
  | error e => exact congrFun (hskip e) s
  | ok v =>
    show (caught .map (Result.map (.ok v) f) >>= seenThrough b [.map g]) s =
      (caught .map (Result.map (.ok v) (Program.composed f g)) >>= seenThrough b []) s
    match hcalled : f v s.world with
    | .ok u w =>
      have hfirst : caught .map (Result.map (.ok v) f) s = .ok (.inl (.ok u)) { s with world := w } := by
        simp only [caught, Run.onWorld, Result.map, hcalled]
      have hboth : caught .map (Result.map (.ok v) (Program.composed f g)) s =
          caught .map (Result.map (.ok u) g) { s with world := w } := by
        simp only [caught, Run.onWorld, Result.map, Program.composed, hcalled]
      rw [bind_of_ok hfirst, seenThrough_ok]
      exact bind_congr_of_ok hboth.symm fun _ _ _ => rfl
    | .error e w =>
      have hraised : Result.map (.ok v) f s.world = .error e w := by
        simp only [Result.map, hcalled]
      have hboth : caught .map (Result.map (.ok v) f) s =
          caught .map (Result.map (.ok v) (Program.composed f g)) s := by
        simp only [caught, Run.onWorld, Result.map, Program.composed, hcalled]
      refine bind_congr_of_ok hboth fun r t hr => ?_
      obtain ⟨e', rfl⟩ := caught_of_raised hraised hr
      exact congrFun (hskip e') t

end

/-! ## Top theorems -/

/-- Behind a known value, a binding stage runs as the program that it answers with. -/
theorem Program.execute_pure_andThen {b : Backend σ} {f : Value → σ → Reply σ (Next (Program σ))}
    {v : Value} {p : Program σ} {s : Run σ} {w : σ} (hf : f v s.world = .ok (.program p) w)
    (hbefore : b.ConnectedIn s) (hafter : b.ConnectedIn { s with world := w }) :
    ((Program.pure v).andThen f).execute b s = p.execute b { s with world := w } := by
  have hevaluate : Program.evaluate b ((Program.pure v).andThen f) s =
      evaluateReply (Root.call b) .andThen (f v s.world) s :=
    congrFun (bind_pure (m := Call (Run σ)) fun s => evaluateReply (Root.call b) .andThen (f v s.world) s) s
  rw [Program.execute_eq_whenConnected, Program.execute_eq_whenConnected, Backend.whenConnected,
    Backend.whenConnected, bind_of_ok hbefore, bind_of_ok hafter]
  simp only [if_true]
  rw [hevaluate, hf]
  rfl

/-- The laws of composition, for every backend, every program and all functions: a binding stage behind
a known value runs as the program that it answers with, one that answers with its value again may be
left out, binding stages may be regrouped, and two transforming stages are one. -/
theorem monad_laws (b : Backend σ) :
    (∀ (v : Value) (f : Value → σ → Reply σ (Next (Program σ))) (p : Program σ) (s : Run σ) (w : σ),
      f v s.world = .ok (.program p) w → b.ConnectedIn s → b.ConnectedIn { s with world := w } →
      ((Program.pure v).andThen f).execute b s = p.execute b { s with world := w }) ∧
    (∀ m : Program σ, Program.SameOn b (m.andThen Program.returning) m) ∧
    (∀ (m : Program σ) (f g : Value → σ → Reply σ (Next (Program σ))), Program.Binds f →
      Program.SameOn b ((m.andThen f).andThen g) (m.andThen (Program.extended f (.andThen g)))) ∧
    (∀ (m : Program σ) (f g : Value → σ → Reply σ Value),
      Program.SameOn b ((m.map f).map g) (m.map (Program.composed f g))) := by
  refine ⟨fun v f p s w => Program.execute_pure_andThen, fun m => ?_, fun m f g hf => ?_,
    fun m f g => ?_⟩
  · obtain ⟨root, ss⟩ := m
    have h := Program.sameOn_of_seen (b := b) root ss seenThrough_returning
    rw [List.append_nil] at h
    exact h
  · have h := Program.sameOn_of_seen (b := b) m.root m.stages
      (seenThrough_extended hf (.andThen g) rfl)
    rw [List.append_cons] at h
    exact h
  · have h := Program.sameOn_of_seen (b := b) m.root m.stages (seenThrough_composed f g)
    rw [List.append_cons] at h
    exact h

/-- A look at a document. -/
def look : Program Store := .command (.get .a)

/-- A program that fails, and recovers with `v`. -/
def recovered (v : Value) : Program Store :=
  (Program.fail Fault.notConnected).orElse fun _ s => .ok (.program (Program.pure v)) s

/-- A binding function whose programs recover by themselves. -/
def recovering : Value → Store → Reply Store (Next (Program Store)) :=
  fun v s => .ok (.program (recovered v)) s

/-- Two recoveries behind a look at a document may as well be one inside the other. -/
theorem recoveries_regroup :
    (Store.backend Slot.whole).ConnectedIn (Run.start ⟨.empty, 0⟩) ∧
    ((Program.pure (.int 1)).andThen recovering).execute (Store.backend Slot.whole)
        (Run.start ⟨.empty, 0⟩) =
      (recovered (.int 1)).execute (Store.backend Slot.whole) (Run.start ⟨.empty, 0⟩) ∧
    Program.Binds recovering ∧
    Program.SameOn (Store.backend Slot.whole)
      ((look.andThen recovering).andThen recovering)
      (look.andThen (Program.extended recovering (.andThen recovering))) := by
  obtain ⟨hpure, -, hregroup, -⟩ := monad_laws (Store.backend Slot.whole)
  have hbinds : Program.Binds recovering := fun v s u t h => by cases h
  exact ⟨rfl, hpure _ _ _ _ _ rfl rfl rfl, hbinds, hregroup _ _ _ hbinds⟩

end CasStore
