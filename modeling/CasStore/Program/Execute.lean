import CasStore.Batch.Engine

/-!
# Executing programs

`Program.on` makes a job of a program: each root becomes the call it stands for on one backend, at
every depth.  `Program.execute` runs that job.
-/

namespace CasStore

variable {σ : Type}

/-! ## Algorithm -/

mutual

/-- The call that a root stands for. -/
def Root.call (b : Backend σ) : Root σ → Call (Run σ) LooseResult
  | .pure v => return .inl (.ok v)
  | .fail e => return .inl (.error e)
  | .command c => b.dispatch c
  | .batch ⟨cursor, items⟩ policy => Batch.asRoot b policy ⟨cursor, itemsOn b items⟩
  | .unsupported name =>
    return .inl (.error (.store (Fault.make .general s!"Unsupported command: {name}")))

/-- A list of item calls, bound to a backend. -/
def itemsOn (b : Backend σ) :
    List (σ → EStateM.Result Fault σ (Item (Pipeline (Root σ) σ))) →
      List (σ → Reply σ (Item (Batch.KeyJob σ)))
  | [] => []
  | item :: items => (fun s => itemReplyOn b (item s)) :: itemsOn b items

/-- What pulling an item came to, bound to a backend. -/
def itemReplyOn (b : Backend σ) :
    EStateM.Result Fault σ (Item (Pipeline (Root σ) σ)) → Reply σ (Item (Batch.KeyJob σ))
  | .ok i s => .ok (itemOn b i) s
  | .error e s => .error e s

/-- An item, bound to a backend. -/
def itemOn (b : Backend σ) : Item (Pipeline (Root σ) σ) → Item (Batch.KeyJob σ)
  | .failed cause => .failed cause
  | .record p content => .record ⟨Program.on b p, Program.printed p⟩ content
  | .misfit p shown creation =>
    .misfit ⟨Program.on b p, Program.printed p⟩ shown fun k =>
      ⟨Program.on b (creation k), Program.printed (creation k)⟩
  | .loose v => .loose v
  | .other v => .other v
  | .strange shown => .strange shown

/-- A program, bound to a backend. -/
def Program.on (b : Backend σ) : Pipeline (Root σ) σ → Job σ
  | .mk root stages => .mk (Root.call b root) (stagesOn b stages)

/-- Stages, bound to a backend. -/
def stagesOn (b : Backend σ) : List (Stage (Root σ) σ) → List (Stage (Call (Run σ) LooseResult) σ)
  | [] => []
  | st :: ss => stageOn b st :: stagesOn b ss

/-- A stage, bound to a backend. -/
def stageOn (b : Backend σ) : Stage (Root σ) σ → Stage (Call (Run σ) LooseResult) σ
  | .map f => .map f
  | .mapErr f => .mapErr f
  | .andThen f => .andThen fun v s => replyOn b (f v s)
  | .orElse f => .orElse fun e s => replyOn b (f e s)

/-- What a binding function came to, bound to a backend. -/
def replyOn (b : Backend σ) :
    EStateM.Result Fault σ (Next (Pipeline (Root σ) σ)) → EStateM.Result Fault σ (Next (Job σ))
  | .ok n s => .ok (nextOn b n) s
  | .error e s => .error e s

/-- What a binding function answered with, bound to a backend. -/
def nextOn (b : Backend σ) : Next (Pipeline (Root σ) σ) → Next (Job σ)
  | .program p => .program (Program.on b p)
  | .value v => .value v

end

namespace Program

/-- Executes a program on a backend. -/
def execute (b : Backend σ) (p : Program σ) : Call (Run σ) LooseResult := Batch.execute b (Program.on b p)

/-- Runs a batch on a backend by itself.  What the sequence or the policy raises is raised. -/
def executeBatch (b : Backend σ) (policy : Policy σ) (source : Source (Program σ) σ) :
    Call (Run σ) (Outcome Fault) :=
  Batch.run b policy ⟨source.cursor, itemsOn b source.items⟩

end Program

end CasStore
