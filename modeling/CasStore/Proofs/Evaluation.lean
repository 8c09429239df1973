import CasStore.Program.Execute
import CasStore.Result

/-!
# What programs come to

`Pipeline.evaluate` is the recursive meaning of pipelines, given what their roots call: the root's result
is folded through the stages from left to right, each stage acts as the combinator of results of its
kind, and a pipeline that a stage answers with is evaluated to its end before the next stage sees
anything.  `Program.execute` gets there with a flat stack of frames, and its loop always ends.

    a turn changes nothing about what is still to come               (Loop.outcome_turn)
    binding roots to a backend is no part of the meaning             (Pipeline.evaluate_on)
    p.execute b = b.whenConnected (p.evaluate b)                     (execute_eq_evaluate)

Backends and stage functions act on one world and are free to keep a record in it of how they were
called, so equal replies for every type of worlds are also equal orders of calls.
-/

namespace CasStore

variable {ρ σ : Type}

/-! ## Algorithm -/

/-- What a stage comes to whose function raised `e`: an ordinary error is the stage's failure. -/
def raisedBy (kind : StageKind) (e : Fault) : Call (Run σ) LooseResult := fun s =>
  match stageRaised kind e with
  | .ok r => .ok (.inl r) s
  | .error e => .error e s

/-- A call on the world by a transforming function. -/
def caught (kind : StageKind) (c : σ → Reply σ Result) : Call (Run σ) LooseResult := fun s =>
  match Run.onWorld c s with
  | .ok r s => .ok (.inl r) s
  | .error e s => raisedBy kind e s

/-- A result as the next stage sees it, its error marked.  What is no result has no success to ask for. -/
def asResult : LooseResult → Call (Run σ) Result
  | .inl r => fun s => let (r, s) := Run.markingResult r s; .ok r s
  | .inr v => throw (Fault.noPart v "is_ok")

mutual

/-- What a pipeline comes to: its root's result, folded through its stages. -/
def Pipeline.evaluate (call : ρ → Call (Run σ) LooseResult) : Pipeline ρ σ → Call (Run σ) LooseResult
  | .mk root stages => call root >>= evaluateStages call stages

/-- A result folded through stages from left to right. -/
def evaluateStages (call : ρ → Call (Run σ) LooseResult) :
    List (Stage ρ σ) → LooseResult → Call (Run σ) LooseResult
  | [], r => pure r
  | st :: ss, r => asResult r >>= evaluateStage call st >>= evaluateStages call ss

/-- A result put through one stage, as by the combinator of its kind. -/
def evaluateStage (call : ρ → Call (Run σ) LooseResult) :
    Stage ρ σ → Result → Call (Run σ) LooseResult
  | .map f, r => caught .map (Result.map r f)
  | .mapErr f, r => caught .mapErr (Result.mapErr r f)
  | .andThen f, r => Result.flatMap r fun v s => evaluateReply call .andThen (f v s.world) s
  | .orElse f, r => Result.orElse r fun e s => evaluateReply call .orElse (f e s.world) s

/-- What a binding function came to, as the stage's result. -/
def evaluateReply (call : ρ → Call (Run σ) LooseResult) (kind : StageKind) :
    EStateM.Result Fault σ (Next (Pipeline ρ σ)) → Call (Run σ) LooseResult
  | .ok n w, s => evaluateNext call kind n { s with world := w }
  | .error e w, s => raisedBy kind e { s with world := w }

/-- What a binding function answered with: a pipeline is evaluated, any other value is refused. -/
def evaluateNext (call : ρ → Call (Run σ) LooseResult) (kind : StageKind) :
    Next (Pipeline ρ σ) → Call (Run σ) LooseResult
  | .program p => Pipeline.evaluate call p
  | .value v => raisedBy kind (notProgram v)

end

/-- What a program comes to on a backend. -/
def Program.evaluate (b : Backend σ) (p : Program σ) : Call (Run σ) LooseResult :=
  Pipeline.evaluate (Root.call b) p

/-- The loop after a number of turns. -/
def Loop.turns : Nat → Loop σ → Loop σ
  | 0, l => l
  | n + 1, l => turns n l.turn

/-- A result passed through the stages of frames, the first frame first. -/
def Pending.evaluate : Pending (Call (Run σ) LooseResult) σ → LooseResult → Call (Run σ) LooseResult
  | [], r => pure r
  | ss :: outer, r => evaluateStages id ss r >>= Pending.evaluate outer

/-- The end of a reaction: a pipeline that is entered is evaluated. -/
def Reaction.finish (call : ρ → Call (Run σ) LooseResult) (s : Run σ) :
    EStateM.Result Fault σ (Reaction (Pipeline ρ σ)) → Reply (Run σ) LooseResult
  | .error e w => .error e { s with world := w }
  | .ok (.settled r) w => .ok (.inl r) { s with world := w }
  | .ok (.enter p) w => Pipeline.evaluate call p { s with world := w }

/-- What is still to come of a loop. -/
def Loop.outcome : Loop σ → Reply (Run σ) LooseResult
  | ended x => x
  | running fs r s => fs.evaluate r s

/-! ## Lemmas -/

/-! ### One stage -/

section

variable {call : ρ → Call (Run σ) LooseResult}

theorem Reaction.finish_broken (kind : StageKind) (e : Fault) (w : σ) (s : Run σ) :
    Reaction.finish call s (broken kind e w) = raisedBy kind e { s with world := w } := by
  unfold broken raisedBy
  cases stageRaised kind e <;> rfl

theorem Reaction.finish_settle {α : Type} {kind : StageKind} {result : α → Result}
    {x : EStateM.Result Fault σ α} {c : σ → Reply σ Result} {s : Run σ}
    (h : c s.world = match x with
      | .ok a w => .ok (result a) w
      | .error e w => .error e w) :
    Reaction.finish call s (settle kind result x) = caught kind c s := by
  unfold caught Run.onWorld
  rw [h]
  cases x with
  | ok a w => rfl
  | error e w =>
    simp only [settle]
    exact finish_broken kind e w s

theorem Reaction.finish_follow (kind : StageKind) (x : EStateM.Result Fault σ (Next (Pipeline ρ σ)))
    (s : Run σ) : Reaction.finish call s (follow kind x) = evaluateReply call kind x s := by
  cases x with
  | ok n w =>
    rw [evaluateReply]
    cases n with
    | program p => rw [evaluateNext]; rfl
    | value v =>
      rw [evaluateNext]
      simp only [follow]
      exact finish_broken kind _ w s
  | error e w =>
    rw [evaluateReply]
    simp only [follow]
    exact finish_broken kind e w s

/-- What a stage comes to by recursion is the end of its reaction. -/
theorem evaluateStage_eq_finish (st : Stage ρ σ) (r : Result) (s : Run σ) :
    evaluateStage call st r s = Reaction.finish call s (st.react r s.world) := by
  cases st with
  | map f =>
    rw [evaluateStage]
    cases r with
    | ok v =>
      refine (Reaction.finish_settle ?_).symm
      simp only [Result.map]
      cases f v s.world <;> rfl
    | error e => rfl
  | mapErr f =>
    rw [evaluateStage]
    cases r with
    | ok v => rfl
    | error e =>
      refine (Reaction.finish_settle ?_).symm
      simp only [Result.mapErr]
      cases f e s.world <;> rfl
  | andThen f =>
    rw [evaluateStage]
    cases r with
    | ok v => exact (Reaction.finish_follow ..).symm
    | error e => rfl
  | orElse f =>
    rw [evaluateStage]
    cases r with
    | ok v => rfl
    | error e => exact (Reaction.finish_follow ..).symm

end

namespace Loop

/-! ### The loop of a run -/

/-- Frames without stages come to nothing of their own, so they may be dropped. -/
theorem evaluate_trim (fs : Pending (Call (Run σ) LooseResult) σ) (r : LooseResult) :
    fs.trim.evaluate r = fs.evaluate r := by
  induction fs with
  | nil => rfl
  | cons ss fs ih =>
    cases ss with
    | nil =>
      refine ih.trans ?_
      rw [Pending.evaluate, evaluateStages, pure_bind]
    | cons st ss => rfl

theorem outcome_goOn (fs : Pending (Call (Run σ) LooseResult) σ) (p : Job σ) (s : Run σ) :
    (goOn (p.stages :: fs) (p.root s)).outcome = (Pipeline.evaluate id p >>= fs.evaluate) s := by
  obtain ⟨root, ss⟩ := p
  rw [Pipeline.evaluate, bind_assoc]
  simp only [Pipeline.root, Pipeline.stages, bind, EStateM.bind, id]
  cases root s <;> rfl

/-- A turn changes nothing about what is still to come. -/
theorem outcome_turn (l : Loop σ) : l.turn.outcome = l.outcome := by
  match l with
  | ended x => rfl
  | running [] r s => rfl
  | running ([] :: outer) r s =>
    simp only [turn, outcome, Pending.evaluate, evaluateStages, pure_bind]
  | running ((st :: rest) :: outer) (.inr v) s =>
    simp only [turn, outcome, Pending.evaluate, evaluateStages]
    rfl
  | running ((st :: rest) :: outer) (.inl r) s =>
    simp only [turn, outcome, Pending.evaluate, evaluateStages, bind, EStateM.bind, asResult]
    generalize Run.markingResult r s = rs
    obtain ⟨r, s⟩ := rs
    simp only [evaluateStage_eq_finish]
    generalize st.react r s.world = x
    cases x with
    | error e w => rfl
    | ok reaction w =>
      cases reaction with
      | settled r => rfl
      | enter p =>
        refine (outcome_goOn ..).trans ?_
        simp only [Reaction.finish, bind, EStateM.bind]
        cases Pipeline.evaluate id p { s with world := w } with
        | error e s => rfl
        | ok r s => exact congrFun (evaluate_trim (rest :: outer) r) s

theorem run_turns (n : Nat) (l : Loop σ) : (turns n l).run = l.run := by
  induction n generalizing l with
  | zero => rfl
  | succ n ih => exact (ih l.turn).trans (run_turn l)

/-- The loop ends, whatever its frames hold. -/
theorem turns_eq_ended (l : Loop σ) : ∃ n, turns n l = ended l.outcome := by
  match l with
  | ended x => exact ⟨0, rfl⟩
  | running fs r s =>
    -- no bound on the number of turns is known beforehand, but every turn shrinks the frames
    induction fs using After.wf.induction generalizing r s with
    | _ fs ih =>
    have hout := outcome_turn (running fs r s)
    cases ht : (running fs r s).turn with
    | ended x => exact ⟨1, by rw [← hout, ht]; exact ht⟩
    | running fs' r' s' =>
      obtain ⟨n, hn⟩ := ih fs' (after_turn ht) r' s'
      refine ⟨n + 1, ?_⟩
      rw [← hout, ht, ← hn, ← ht]
      rfl

theorem run_eq_outcome (l : Loop σ) : l.run = l.outcome := by
  obtain ⟨n, hn⟩ := turns_eq_ended l
  rw [← run_turns n l, hn, run_ended]

theorem outcome_start (j : Job σ) (s : Run σ) : (start j s).outcome = Pipeline.evaluate id j s := by
  refine (outcome_goOn [] j s).trans ?_
  exact congrFun (bind_pure (Pipeline.evaluate id j)) s

end Loop

/-- A job's run in frames comes to what its recursion comes to. -/
theorem Job.run_eq_evaluate (j : Job σ) : j.run = Pipeline.evaluate id j := by
  funext s
  rw [Job.run, Loop.run_eq_outcome, Loop.outcome_start]

/-! ### Programs on a backend -/

mutual

/-- A program bound to a backend comes to what the program does there. -/
theorem Pipeline.evaluate_on (b : Backend σ) :
    ∀ p : Program σ, Pipeline.evaluate id (Program.on b p) = Pipeline.evaluate (Root.call b) p
  | .mk root stages => by
    rw [Program.on, Pipeline.evaluate, Pipeline.evaluate, evaluateStages_on b stages]
    rfl

theorem evaluateStages_on (b : Backend σ) : ∀ ss : List (Stage (Root σ) σ),
    evaluateStages id (stagesOn b ss) = evaluateStages (Root.call b) ss
  | [] => by
    funext r
    rw [stagesOn, evaluateStages, evaluateStages]
  | st :: ss => by
    funext r
    rw [stagesOn, evaluateStages, evaluateStages, evaluateStage_on b st, evaluateStages_on b ss]

theorem evaluateStage_on (b : Backend σ) : ∀ st : Stage (Root σ) σ,
    evaluateStage id (stageOn b st) = evaluateStage (Root.call b) st
  | .map f => by
    funext r
    rw [stageOn, evaluateStage, evaluateStage]
  | .mapErr f => by
    funext r
    rw [stageOn, evaluateStage, evaluateStage]
  | .andThen f => by
    have ih := fun v s => evaluateReply_on b .andThen (f v s)
    funext r
    rw [stageOn, evaluateStage, evaluateStage]
    simp only [ih]
    rfl
  | .orElse f => by
    have ih := fun e s => evaluateReply_on b .orElse (f e s)
    funext r
    rw [stageOn, evaluateStage, evaluateStage]
    simp only [ih]
    rfl

theorem evaluateReply_on (b : Backend σ) (kind : StageKind) :
    ∀ x : EStateM.Result Fault σ (Next (Program σ)),
      evaluateReply id kind (replyOn b x) = evaluateReply (Root.call b) kind x
  | .ok n w => by
    funext s
    rw [replyOn, evaluateReply, evaluateReply, evaluateNext_on b kind n]
  | .error e w => by
    funext s
    rw [replyOn, evaluateReply, evaluateReply]

theorem evaluateNext_on (b : Backend σ) (kind : StageKind) :
    ∀ n : Next (Program σ),
      evaluateNext id kind (nextOn b n) = evaluateNext (Root.call b) kind n
  | .program p => by
    rw [nextOn, evaluateNext, evaluateNext, Pipeline.evaluate_on b p]
  | .value v => by
    rw [nextOn, evaluateNext, evaluateNext]

end

theorem Job.run_on (b : Backend σ) (p : Program σ) : (Program.on b p).run = p.evaluate b := by
  rw [Job.run_eq_evaluate, Pipeline.evaluate_on]
  rfl

/-- Execution asks whether the backend is connected, and then comes to what the recursion comes to. -/
theorem Program.execute_eq_whenConnected (b : Backend σ) (p : Program σ) :
    p.execute b = b.whenConnected (p.evaluate b) := by
  rw [← Job.run_on]
  rfl

/-! ### Parts of programs -/

theorem evaluateStages_append (call : ρ → Call (Run σ) LooseResult) (front back : List (Stage ρ σ))
    (r : LooseResult) :
    evaluateStages call (front ++ back) r = evaluateStages call front r >>= evaluateStages call back := by
  induction front generalizing r with
  | nil =>
    rw [List.nil_append, evaluateStages]
    exact (pure_bind _ _).symm
  | cons st front ih =>
    rw [List.cons_append, evaluateStages, evaluateStages, funext ih]
    exact (bind_assoc _ _ _).symm

theorem Program.evaluate_mk (b : Backend σ) (root : Root σ) (stages : List (Stage (Root σ) σ)) :
    Program.evaluate b (.mk root stages) = Root.call b root >>= evaluateStages (Root.call b) stages := by
  rw [Program.evaluate, Pipeline.evaluate]

theorem Program.evaluate_mk_append (b : Backend σ) (root : Root σ)
    (front back : List (Stage (Root σ) σ)) :
    Program.evaluate b (.mk root (front ++ back)) =
      Program.evaluate b (.mk root front) >>= evaluateStages (Root.call b) back := by
  rw [evaluate_mk, evaluate_mk, bind_assoc]
  congr 1
  funext r
  exact evaluateStages_append _ front back r

/-! ## Top theorems -/

/-- Execution with a stack of frames comes to what the recursion comes to, on every backend, and its
loop ends after some number of turns. -/
theorem execute_eq_evaluate (b : Backend σ) (p : Program σ) :
    p.execute b = b.whenConnected (Program.evaluate b p) ∧
      ∀ s, ∃ n, Loop.turns n (Loop.start (Program.on b p) s) = .ended (Program.evaluate b p s) := by
  refine ⟨Program.execute_eq_whenConnected b p, fun s => ?_⟩
  obtain ⟨n, hn⟩ := Loop.turns_eq_ended (Loop.start (Program.on b p) s)
  refine ⟨n, ?_⟩
  rw [hn, Loop.outcome_start, Pipeline.evaluate_on]
  rfl

end CasStore
