import CasStore.Run

/-!
# Pipelines

A pipeline is a root followed by stages.  A stage acts on a success or on a failure: it transforms what
it gets, or answers with another pipeline that runs before the next stage does.  `Stage.react` is what
one stage does with one result.

Pipelines are well-founded trees: a function answers with pipelines that were there before its own, so
every run ends.  One that answers with itself, like a loop that tries again until it succeeds, is not
among them; it has to be unrolled to some depth.

    the pending stages shrink with every turn of a run                 (After.wf)
-/

namespace CasStore

/-- The four kinds of stages. -/
inductive StageKind
  | map
  | andThen
  | mapErr
  | orElse
  deriving DecidableEq, Repr

/-- The name of a kind of stage. -/
def StageKind.name : StageKind → String
  | .map => "map"
  | .andThen => "and_then"
  | .mapErr => "map_err"
  | .orElse => "or_else"

/-- Stages of this kind act on successes; the others act on failures. -/
def StageKind.onSuccess : StageKind → Bool
  | .map | .andThen => true
  | .mapErr | .orElse => false

/-- What a binding function answers with: a pipeline to go on with, or some other value. -/
inductive Next (π : Type)
  | program (p : π)
  | value (v : Value)

mutual

/-- A root and the stages after it. -/
inductive Pipeline (ρ σ : Type) : Type
  | mk (root : ρ) (stages : List (Stage ρ σ))

/-- A stage and its function. -/
inductive Stage (ρ σ : Type) : Type
  | map (f : Value → σ → EStateM.Result Fault σ Value)
  | andThen (f : Value → σ → EStateM.Result Fault σ (Next (Pipeline ρ σ)))
  | mapErr (f : Fault → σ → EStateM.Result Fault σ Fault)
  | orElse (f : Fault → σ → EStateM.Result Fault σ (Next (Pipeline ρ σ)))

end

/-- What a stage makes of a result: another result, or a pipeline to run. -/
inductive Reaction (π : Type)
  | settled (r : Result)
  | enter (p : π)

variable {ρ σ : Type}

namespace Pipeline

/-- What runs first. -/
def root : Pipeline ρ σ → ρ
  | mk r _ => r

/-- What runs on the root's result, in order. -/
def stages : Pipeline ρ σ → List (Stage ρ σ)
  | mk _ ss => ss

/-- `p` with one more stage. -/
def append (p : Pipeline ρ σ) (st : Stage ρ σ) : Pipeline ρ σ := mk p.root (p.stages ++ [st])

end Pipeline

/-- The kind of a stage. -/
def Stage.kind : Stage ρ σ → StageKind
  | .map _ => .map
  | .andThen _ => .andThen
  | .mapErr _ => .mapErr
  | .orElse _ => .orElse

/-! ## Algorithm -/

/-- A stage function raised `cause`; to say so takes its message. -/
def stageFailure (kind : StageKind) (cause : Fault) : Except Fault Fault :=
  cause.written.map fun text =>
    (Fault.store { Fault.make .general s!"{kind.name} stage raised {cause.kindName}: {text}" with
      cause := some cause }).within [("stage", .text kind.name)]

/-- The result of a stage whose function raised `e`.  Only an ordinary error is the stage's failure. -/
def stageRaised (kind : StageKind) (e : Fault) : Except Fault Result :=
  if e.isOrdinary then (stageFailure kind e).map .error else .error e

/-- A value that is no program, where a program is expected. -/
def notProgram (v : Value) : Fault := .wrongType s!"expected Program, got {v.typeName}"

/-- The reaction of a stage whose function raised `e`. -/
def broken (kind : StageKind) (e : Fault) (s : σ) : EStateM.Result Fault σ (Reaction (Pipeline ρ σ)) :=
  match stageRaised kind e with
  | .ok r => .ok (.settled r) s
  | .error e => .error e s

/-- The reaction to what a transforming function came to. -/
def settle (kind : StageKind) (result : α → Result) :
    EStateM.Result Fault σ α → EStateM.Result Fault σ (Reaction (Pipeline ρ σ))
  | .ok a s => .ok (.settled (result a)) s
  | .error e s => broken kind e s

/-- The reaction to what a binding function came to. -/
def follow (kind : StageKind) :
    EStateM.Result Fault σ (Next (Pipeline ρ σ)) →
      EStateM.Result Fault σ (Reaction (Pipeline ρ σ))
  | .ok (.program p) s => .ok (.enter p) s
  | .ok (.value v) s => broken kind (notProgram v) s
  | .error e s => broken kind e s

/-- What one stage does with one result. -/
def Stage.react : Stage ρ σ → Result → σ → EStateM.Result Fault σ (Reaction (Pipeline ρ σ))
  | .map f, .ok v, s => settle .map .ok (f v s)
  | .andThen f, .ok v, s => follow .andThen (f v s)
  | .mapErr f, .error e, s => settle .mapErr .error (f e s)
  | .orElse f, .error e, s => follow .orElse (f e s)
  | _, r, s => .ok (.settled r) s

/-- The stages still to run: those of the running pipeline first, then those of the pipelines around
it, the nearest first. -/
abbrev Pending (ρ σ : Type) := List (List (Stage ρ σ))

/-- `fs` without the frames in front that have no stage left. -/
def Pending.trim (fs : Pending ρ σ) : Pending ρ σ := fs.dropWhile List.isEmpty

/-- `st` may answer with the pipeline `p`. -/
def Stage.Yields (st : Stage ρ σ) (p : Pipeline ρ σ) : Prop :=
  ∃ r s s', st.react r s = .ok (.enter p) s'

/-- `After gs fs`: where `fs` is pending, `gs` may be pending one turn later. -/
inductive After : Pending ρ σ → Pending ρ σ → Prop
  | pop {fs} : After fs ([] :: fs)
  | pass {st ss fs} : After (ss :: fs) ((st :: ss) :: fs)
  | enter {st ss fs p} (h : Stage.Yields st p) :
      After (p.stages :: Pending.trim (ss :: fs)) ((st :: ss) :: fs)

/-! ## Lemmas -/

theorem stageFailure_of_hasMessage (kind : StageKind) {e : Fault} (h : e.hasMessage = true) :
    stageFailure kind e =
      .ok ((Fault.store { Fault.make .general s!"{kind.name} stage raised {e.kindName}: {e.message}" with
        cause := some e }).within [("stage", .text kind.name)]) := by
  rw [stageFailure, Fault.written_of_hasMessage h]
  rfl

theorem stageRaised_of_hasMessage (kind : StageKind) {e : Fault} (ho : e.isOrdinary = true)
    (h : e.hasMessage = true) : ∃ f, stageFailure kind e = .ok f ∧ stageRaised kind e = .ok (.error f) :=
  ⟨_, stageFailure_of_hasMessage kind h, by
    rw [stageRaised, if_pos ho, stageFailure_of_hasMessage kind h]; rfl⟩

/-- What a stage function raises is the stage's failure; or it is an interrupt and goes on; or its message
cannot be written, and saying so raises. -/
theorem stageRaised_cases (kind : StageKind) (e : Fault) :
    (∃ f, stageRaised kind e = .ok (.error f)) ∨
      (e.isOrdinary = false ∧ stageRaised kind e = .error e) ∨
      (e.hasMessage = false ∧ stageRaised kind e = .error (.ofNumeral .tooLarge)) := by
  cases ho : e.isOrdinary with
  | false => exact .inr (.inl ⟨rfl, by rw [stageRaised, ho]; rfl⟩)
  | true =>
    cases h : e.hasMessage with
    | true =>
      obtain ⟨f, -, hf⟩ := stageRaised_of_hasMessage kind ho h
      exact .inl ⟨f, hf⟩
    | false =>
      refine .inr (.inr ⟨rfl, ?_⟩)
      rw [stageRaised, if_pos ho, stageFailure, Fault.written_of_not_hasMessage h]
      rfl

theorem hasMessage_notProgram (v : Value) : (notProgram v).hasMessage = true := Fault.hasMessage_text ..

theorem broken_ne_enter {kind : StageKind} {e : Fault} {s s' : σ} {p : Pipeline ρ σ} :
    broken kind e s ≠ .ok (.enter p) s' := by
  unfold broken
  split <;> simp

theorem settle_ne_enter {kind : StageKind} {result : α → Result} {x : EStateM.Result Fault σ α}
    {p : Pipeline ρ σ} {s : σ} : settle kind result x ≠ .ok (.enter p) s := by
  cases x with
  | ok a s => simp [settle]
  | error e s => exact broken_ne_enter

theorem follow_eq_enter {kind : StageKind} {x : EStateM.Result Fault σ (Next (Pipeline ρ σ))}
    {p : Pipeline ρ σ} {s : σ} (h : follow kind x = .ok (.enter p) s) : x = .ok (.program p) s := by
  cases x with
  | error e s => exact absurd h broken_ne_enter
  | ok n s =>
    cases n with
    | program q => simpa [follow] using h
    | value v =>
      simp only [follow] at h
      exact absurd h broken_ne_enter

theorem Stage.not_yields_map {f : Value → σ → EStateM.Result Fault σ Value} {p : Pipeline ρ σ} :
    ¬ (Stage.map f).Yields p := by
  rintro ⟨r, s, s', h⟩
  cases r with
  | error e => simp [react] at h
  | ok v => exact settle_ne_enter h

theorem Stage.not_yields_mapErr {f : Fault → σ → EStateM.Result Fault σ Fault} {p : Pipeline ρ σ} :
    ¬ (Stage.mapErr f).Yields p := by
  rintro ⟨r, s, s', h⟩
  cases r with
  | ok v => simp [react] at h
  | error e => exact settle_ne_enter h

theorem Stage.yields_andThen {f : Value → σ → EStateM.Result Fault σ (Next (Pipeline ρ σ))}
    {p : Pipeline ρ σ} (h : (Stage.andThen f).Yields p) : ∃ v s s', f v s = .ok (.program p) s' := by
  obtain ⟨r, s, s', h⟩ := h
  cases r with
  | error e => simp [react] at h
  | ok v => exact ⟨v, s, s', follow_eq_enter h⟩

theorem Stage.yields_orElse {f : Fault → σ → EStateM.Result Fault σ (Next (Pipeline ρ σ))}
    {p : Pipeline ρ σ} (h : (Stage.orElse f).Yields p) : ∃ e s s', f e s = .ok (.program p) s' := by
  obtain ⟨r, s, s', h⟩ := h
  cases r with
  | ok v => simp [react] at h
  | error e => exact ⟨e, s, s', follow_eq_enter h⟩

theorem After.acc_trim {fs : Pending ρ σ} (h : Acc After fs) : Acc After fs.trim := by
  induction fs with
  | nil => exact h
  | cons ss fs ih =>
    cases ss with
    | nil => exact ih (h.inv .pop)
    | cons => exact h

mutual

theorem Pipeline.acc_after : ∀ (p : Pipeline ρ σ) (fs : Pending ρ σ), Acc After fs →
    Acc After (p.stages :: fs)
  | .mk _ ss, fs, h => stages_acc_after ss fs h

theorem stages_acc_after : ∀ (ss : List (Stage ρ σ)) (fs : Pending ρ σ), Acc After fs →
    Acc After (ss :: fs)
  | [], fs, h => Acc.intro _ fun _ hy => by cases hy; exact h
  | st :: ss, fs, h =>
    have rest := stages_acc_after ss fs h
    have entered := Stage.acc_after st
    Acc.intro _ fun _ hy => by
      cases hy with
      | pass => exact rest
      | enter hp => exact entered _ hp _ (After.acc_trim rest)

theorem Stage.acc_after : ∀ (st : Stage ρ σ) (p : Pipeline ρ σ), st.Yields p →
    ∀ fs : Pending ρ σ, Acc After fs → Acc After (p.stages :: fs)
  | .map _, _, h => absurd h Stage.not_yields_map
  | .mapErr _, _, h => absurd h Stage.not_yields_mapErr
  | .andThen f, p, h => fun fs hf =>
    have ih := fun v s => reply_acc_after (f v s)
    have ⟨v, s, s', h⟩ := Stage.yields_andThen h
    ih v s p s' h fs hf
  | .orElse f, p, h => fun fs hf =>
    have ih := fun e s => reply_acc_after (f e s)
    have ⟨e, s, s', h⟩ := Stage.yields_orElse h
    ih e s p s' h fs hf

theorem reply_acc_after : ∀ (x : EStateM.Result Fault σ (Next (Pipeline ρ σ))) (p : Pipeline ρ σ)
    (s : σ), x = .ok (.program p) s → ∀ fs : Pending ρ σ, Acc After fs → Acc After (p.stages :: fs)
  | .ok n _, p, _, h, fs, hf => next_acc_after n p (by cases h; rfl) fs hf
  | .error _ _, _, _, h, _, _ => by cases h

theorem next_acc_after : ∀ (n : Next (Pipeline ρ σ)) (p : Pipeline ρ σ), n = .program p →
    ∀ fs : Pending ρ σ, Acc After fs → Acc After (p.stages :: fs)
  | .program q, _, h, fs, hf => by cases h; exact Pipeline.acc_after q fs hf
  | .value _, _, h, _, _ => by cases h

end

/-- No run goes on for ever: whatever the stages answer with, the pending stages shrink. -/
theorem After.wf : WellFounded (After (ρ := ρ) (σ := σ)) := by
  constructor
  intro fs
  induction fs with
  | nil => exact Acc.intro _ fun _ h => by cases h
  | cons ss fs ih => exact stages_acc_after ss fs ih

instance : WellFoundedRelation (Pending ρ σ) := ⟨After, After.wf⟩

end CasStore
