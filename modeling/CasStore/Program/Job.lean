import CasStore.Program.Pipeline

/-!
# Running pipelines

A job is a pipeline whose root is a call.  Its run keeps the stages still to run in frames, one frame for
each pipeline entered, and drops the frames in front that are used up before it enters another; so long
chains of pipelines run in a flat stack.  `Loop.turn` is one turn of that loop, and `Job.run` takes turns
until the loop has ended.

    the frames shrink with every turn                                (Loop.after_turn)
    a turn changes nothing about what the loop comes to              (Loop.run_turn)
-/

namespace CasStore

/-- A pipeline whose root is a call on the run. -/
abbrev Job (σ : Type) := Pipeline (Call (Run σ) LooseResult) σ

/-- Where the loop of a run stands: with frames still to run, or at its end. -/
inductive Loop (σ : Type)
  | running (frames : Pending (Call (Run σ) LooseResult) σ) (r : LooseResult) (s : Run σ)
  | ended (reply : Reply (Run σ) LooseResult)

variable {σ : Type}

namespace Loop

/-! ## Algorithm -/

/-- The frames of a loop; at its end there are none. -/
def frames : Loop σ → Pending (Call (Run σ) LooseResult) σ
  | running fs _ _ => fs
  | ended _ => []

/-- The loop goes on with frames and what a root came to, unless that was raised. -/
def goOn (frames : Pending (Call (Run σ) LooseResult) σ) : Reply (Run σ) LooseResult → Loop σ
  | .ok r s => running frames r s
  | .error e s => ended (.error e s)

/-- One turn: a frame with no stage left is dropped, of any other one its next stage is run.  What is no
result goes through only where no stage is left. -/
def turn : Loop σ → Loop σ
  | ended x => ended x
  | running [] r s => ended (.ok r s)
  | running ([] :: outer) r s => running outer r s
  | running ((_ :: _) :: _) (.inr v) s => ended (.error (Fault.noPart v "is_ok") s)
  | running ((st :: rest) :: outer) (.inl r) s =>
    let (r, s) := Run.markingResult r s
    match st.react r s.world with
    | .error e w => ended (.error e { s with world := w })
    | .ok (.settled r) w => running (rest :: outer) (.inl r) { s with world := w }
    | .ok (.enter p) w =>
      goOn (p.stages :: Pending.trim (rest :: outer)) (p.root { s with world := w })

/-- The frames shrink with every turn after which the loop still runs. -/
theorem after_turn {fs fs' : Pending (Call (Run σ) LooseResult) σ} {r r' : LooseResult}
    {s s' : Run σ} (h : (running fs r s).turn = running fs' r' s') : After fs' fs := by
  match fs, r with
  | [], r => cases h
  | [] :: outer, r => cases h; exact .pop
  | (_ :: _) :: _, .inr v => cases h
  | (st :: rest) :: outer, .inl r =>
    simp only [turn] at h
    split at h
    · cases h
    · cases h; exact .pass
    · next p w hr =>
      unfold goOn at h
      split at h
      · cases h; exact .enter ⟨_, _, _, hr⟩
      · cases h

/-- Takes turns until the loop has ended. -/
def run : Loop σ → Reply (Run σ) LooseResult
  | ended x => x
  | running fs r s =>
    match _h : (running fs r s).turn with
    | ended x => x
    | running fs' r' s' => run (running fs' r' s')
termination_by l => l.frames
decreasing_by exact after_turn _h

/-- The loop of a job, once its root has been called. -/
def start (j : Job σ) (s : Run σ) : Loop σ := goOn [j.stages] (j.root s)

end Loop

/-- Runs the root, then the stages. -/
def Job.run (j : Job σ) : Call (Run σ) LooseResult := fun s => (Loop.start j s).run

namespace Loop

/-! ## Lemmas -/

theorem run_ended (x : Reply (Run σ) LooseResult) : (ended x).run = x := by
  rw [run]

theorem run_turn (l : Loop σ) : l.turn.run = l.run := by
  cases l with
  | ended x => rfl
  | running fs r s =>
    rw [run.eq_def (running fs r s)]
    simp only
    split
    · next h => rw [h, run_ended]
    · next h => rw [h]

end Loop

end CasStore
