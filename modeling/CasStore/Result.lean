import CasStore.Run

/-!
# Results

What can be done with a result besides looking at it.  The caller's functions act on a world and may
raise; what they raise goes on, except in `Result.attempt`, which makes a result of it.  Transforming and
going on leave a failure as it is, mending and replacing leave a success.
-/

namespace CasStore.Result

variable {σ : Type}

/-! ## Algorithm -/

/-- Transforms the value. -/
def map (r : Result) (f : Value → σ → Reply σ Value) : σ → Reply σ Result := fun s =>
  match r with
  | .error e => .ok (.error e) s
  | .ok v =>
    match f v s with
    | .ok w s => .ok (.ok w) s
    | .error e s => .error e s

/-- Transforms the error. -/
def mapErr (r : Result) (f : Fault → σ → Reply σ Fault) : σ → Reply σ Result := fun s =>
  match r with
  | .ok v => .ok (.ok v) s
  | .error e =>
    match f e s with
    | .ok g s => .ok (.error g) s
    | .error e s => .error e s

/-- Goes on with the value.  Nothing makes sure that the function answers with a result. -/
def flatMap (r : Result) (f : Value → σ → Reply σ LooseResult) : σ → Reply σ LooseResult :=
  fun s =>
    match r with
    | .error e => .ok (.inl (.error e)) s
    | .ok v => f v s

/-- Replaces a failure.  Nothing makes sure that the function answers with a result. -/
def orElse (r : Result) (f : Fault → σ → Reply σ LooseResult) : σ → Reply σ LooseResult :=
  fun s =>
    match r with
    | .ok v => .ok (.inl (.ok v)) s
    | .error e => f e s

/-- The value; the error is raised. -/
def unwrap (r : Result) : σ → Reply σ Value := fun s =>
  match r with
  | .ok v => .ok v s
  | .error e => .error e s

/-- The value, or another one instead of an error. -/
def unwrapOr (r : Result) (other : Value) : Value :=
  match r with
  | .ok v => v
  | .error _ => other

/-- The result of a call.  An ordinary error that it raises is put through `mapper`. -/
def attempt (body : σ → Reply σ Value) (mapper : Fault → σ → Reply σ Fault) : σ → Reply σ Result :=
  fun s =>
    match body s with
    | .ok v s => .ok (.ok v) s
    | .error e s => if e.isOrdinary then mapErr (.error e) mapper s else .error e s

/-- The unambiguous text of a result. -/
def shown (r : Result) : String :=
  match r with
  | .ok v => s!"Ok({v.shown})"
  | .error e => s!"Err({e.shown})"

/-- The two results are equal. -/
def equal (a b : Result) : Bool :=
  match a, b with
  | .ok v, .ok w => v.equal w
  | .error e, .error f => e.same f
  | _, _ => false

end CasStore.Result
