import CasStore.Proofs.Recovery

/-!
# Programs in a row

A row of programs is executed one by one, as long as they succeed: `inTurn` comes to the list of their
values, or to the error of the first that fails, and executes nothing behind that one.
`Program.sequence` makes a single program of the row, with a stage for each.  Its stages enter the
programs as nested ones and hand the values collected so far from one to the next.

    behind a failure the stages do nothing                           (seenThrough_collecting_error)
    a stage adds the value of its program to those collected         (seenThrough_collecting)
    the single program runs as the row does                          (sequence_in_turn)
-/

namespace CasStore

variable {σ : Type}

/-! ## Algorithm -/

namespace Program

/-- Executes programs one by one and looks at each result, up to the first error. -/
def inTurn (b : Backend σ) : List (Program σ) → Call (Run σ) (Except Fault (List Value))
  | [] => return .ok []
  | p :: ps => do
    match ← p.observe b with
    | .error e => return .error e
    | .ok v => return (← inTurn b ps).map (v :: ·)

/-- The backend is connected wherever one of the programs begins, when they are executed in turn. -/
def ConnectedThrough (b : Backend σ) : List (Program σ) → Run σ → Prop
  | [], _ => True
  | p :: ps, s => b.ConnectedIn s ∧ ∀ v t, p.observe b s = .ok (.ok v) t → ConnectedThrough b ps t

/-- The stage that runs a program of a row, with the values collected so far. -/
def collecting (p : Program σ) : Stage (Root σ) σ :=
  .andThen fun acc s => .ok (.program (collect acc p)) s

end Program

/-! ## Lemmas -/

section

variable {b : Backend σ} {s : Run σ}

/-- The program of a row begins with no values, and has a stage for each program. -/
theorem Program.sequence_eq_withStages (ps : List (Program σ)) :
    Program.sequence ps = (Program.pure (.list [])).withStages (ps.map Program.collecting) := by
  suffices h : ∀ q : Program σ,
      ps.foldl (fun q p => q.andThen fun acc s => .ok (.program (collect acc p)) s) q =
        q.withStages (ps.map collecting) from h _
  induction ps with
  | nil => exact fun q => (withStages_nil q).symm
  | cons p ps ih => exact fun q => (ih _).trans (append_withStages q _ _)

/-- On a connected backend, what is seen of a program is the result that its stages come to. -/
theorem Program.observe_of_connected (hs : b.ConnectedIn s) (p : Program σ) :
    p.observe b s = (Program.evaluate b p >>= asResult) s := by
  have h := observe_withStages hs p []
  rw [withStages_nil, funext seenThrough_nil] at h
  exact h

/-- A backend that is always connected is so wherever a program of a row begins. -/
theorem Program.connectedThrough (h : ∀ s, b.ConnectedIn s) (ps : List (Program σ)) :
    ∀ s, Program.ConnectedThrough b ps s := by
  induction ps with
  | nil => exact fun _ => trivial
  | cons p ps ih => exact fun s => ⟨h s, fun _ t _ => ih t⟩

/-- A failure goes past all the programs still to come. -/
theorem seenThrough_collecting_error (e : Fault) (ps : List (Program σ)) :
    seenThrough b (ps.map Program.collecting) (.inl (.error e)) = asResult (.inl (.error e)) := by
  induction ps with
  | nil => exact seenThrough_nil _
  | cons p ps ih =>
    rw [List.map_cons, seenThrough_skip Bool.noConfusion]
    exact ih

/-- Behind a look at a result, what is done with errors matters for those only that bear marks. -/
theorem asResult_bind_congr_marked {α : Type} {k k' : Result → Call (Run σ) α}
    (h : ∀ r : Result, r.Marked → k r = k' r) (r : LooseResult) :
    asResult r >>= k = asResult r >>= k' := by
  funext s
  exact bind_congr_of_ok rfl fun r' t hr' => congrFun (h r' (marked_of_asResult hr')) t

/-- A program entered with the values collected so far comes to them and its own, or to its error. -/
theorem evaluate_collect (p : Program σ) (vs : List Value) :
    Program.evaluate b (Program.collect (.list vs) p) =
      Program.evaluate b p >>= fun r => asResult r >>= fun r =>
        pure (.inl (Except.map (fun v => .list (vs ++ [v])) r)) := by
  obtain ⟨root, ss⟩ := p
  have hsplit := Program.evaluate_mk_append b root ss
    [.map fun v s => .ok (Program.push (.list vs) v) s]
  rw [Program.collect, Program.map, Pipeline.append, Pipeline.root, Pipeline.stages, hsplit]
  congr 1
  funext r
  rw [evaluateStages, funext (evaluateStages.eq_1 (Root.call b)), bind_pure]
  congr 1
  funext r
  cases r <;> rfl

/-- The first program of a row is executed and looked at, and its value goes along to the others. -/
theorem seenThrough_collecting (hs : b.ConnectedIn s) (p : Program σ) (ps : List (Program σ))
    (vs : List Value) :
    seenThrough b ((p :: ps).map Program.collecting) (.inl (.ok (.list vs))) s =
      (p.observe b >>= fun r =>
        match r with
        | .error e => pure (.error e)
        | .ok v => seenThrough b (ps.map Program.collecting) (.inl (.ok (.list (vs ++ [v]))))) s := by
  have hentered : seenThrough b ((p :: ps).map Program.collecting) (.inl (.ok (.list vs))) =
      Program.evaluate b (Program.collect (.list vs) p) >>=
        seenThrough b (ps.map Program.collecting) :=
    seenThrough_ok (.list vs) (Program.collecting p) _
  rw [hentered, evaluate_collect,
    bind_congr_of_ok (Program.observe_of_connected hs p) fun _ _ _ => rfl, bind_assoc, bind_assoc]
  refine congrFun (congrArg (Program.evaluate b p >>= ·) (funext fun r => ?_)) s
  rw [bind_assoc]
  refine asResult_bind_congr_marked (fun r hr => ?_) r
  rw [pure_bind]
  cases r with
  | ok v => rfl
  | error e =>
    -- the error was looked at, so going past the other stages leaves no trace
    funext t
    show seenThrough b _ (.inl (.error e)) t = .ok (.error e) t
    rw [seenThrough_collecting_error, asResult_of_marked hr]

/-- The stages of a row run as the programs in turn, behind the values collected so far. -/
theorem seenThrough_row (ps : List (Program σ)) (hps : Program.ConnectedThrough b ps s)
    (vs : List Value) :
    seenThrough b (ps.map Program.collecting) (.inl (.ok (.list vs))) s =
      (Program.inTurn b ps >>= fun r => pure (r.map fun ws => .list (vs ++ ws))) s := by
  induction ps generalizing s vs with
  | nil =>
    rw [List.map_nil, seenThrough_nil, Program.inTurn, pure_bind]
    show EStateM.Result.ok (Except.ok (Value.list vs)) s = .ok (.ok (.list (vs ++ []))) s
    rw [List.append_nil]
  | cons p ps ih =>
    obtain ⟨hs, hrest⟩ := hps
    rw [seenThrough_collecting hs, Program.inTurn, bind_assoc]
    refine bind_congr_of_ok rfl fun r t hr => ?_
    cases r with
    | error e => rfl
    | ok v =>
      show seenThrough b _ _ t = _
      rw [ih (hrest v t hr), bind_assoc]
      refine bind_congr_of_ok rfl fun r u _ => ?_
      cases r with
      | error e => rfl
      | ok ws =>
        show EStateM.Result.ok (Except.ok (Value.list (vs ++ [v] ++ ws))) u =
          .ok (.ok (.list (vs ++ v :: ws))) u
        rw [List.append_assoc, List.singleton_append]

end

/-! ## Top theorems -/

/-- The single program made of a row of programs runs as they do in turn: with the same calls in the same
order, and to the list of all values, or to the first error. -/
theorem sequence_in_turn (b : Backend σ) (ps : List (Program σ)) (s : Run σ) (hs : b.ConnectedIn s)
    (hps : Program.ConnectedThrough b ps s) :
    (Program.sequence ps).observe b s = (Program.inTurn b ps >>= fun r => pure (r.map .list)) s := by
  have hbegin : (Program.evaluate b (Program.pure (.list []) : Program σ) >>=
      seenThrough b (ps.map Program.collecting)) s =
      seenThrough b (ps.map Program.collecting) (.inl (.ok (.list []))) s := rfl
  rw [Program.sequence_eq_withStages, Program.observe_withStages hs, hbegin]
  exact seenThrough_row ps hps []

/-- Writes a document anew, whatever its version. -/
def rewriting : Program Store := .command (.update .a "y" .none)

/-- Recovers from a failure, and fails all the same. -/
def relapsing : Program Store :=
  (recovered (.int 1)).andThen fun _ s => .ok (.program (.fail (Fault.notConnected.mark 2))) s

/-- Programs that succeed, one of them by recovering and one of them twice. -/
def steadyRow : List (Program Store) :=
  [.command (.create .a "x"), rewriting, recovered (.text "z"), rewriting]

/-- The program that fails, and one that would still have something to write. -/
def brokenRow : List (Program Store) := steadyRow ++ [relapsing, rewriting]

/-- The reply is this result, and so many versions have been given out. -/
def Reply.isResult (r : Result) (versions : Int) : Reply (Run Store) Result → Bool
  | .ok r' s => Result.equal r' r && s.world.lastVersion == versions
  | .error _ _ => false

/-- Two rows on a store.  The first comes to the values of its programs in order, each occurrence giving
its own; the second stops at the program that fails, although that one has recovered before. -/
theorem rows_in_turn :
    (Store.backend Slot.whole).ConnectedIn (Run.start ⟨.empty, 0⟩) ∧
    Program.ConnectedThrough (Store.backend Slot.whole) steadyRow (Run.start ⟨.empty, 0⟩) ∧
    Program.ConnectedThrough (Store.backend Slot.whole) brokenRow (Run.start ⟨.empty, 0⟩) ∧
    Reply.isResult (.ok (.list [Document.toValue ⟨"x", ⟨1⟩⟩, Document.toValue ⟨"y", ⟨2⟩⟩, .text "z",
        Document.toValue ⟨"y", ⟨3⟩⟩])) 3
      ((Program.inTurn (Store.backend Slot.whole) steadyRow >>= fun r => pure (r.map .list))
        (Run.start ⟨.empty, 0⟩)) ∧
    Reply.isResult (.error (Fault.notConnected.mark 2)) 3
      ((Program.inTurn (Store.backend Slot.whole) brokenRow >>= fun r => pure (r.map .list))
        (Run.start ⟨.empty, 0⟩)) := by
  have hconnected : ∀ s, (Store.backend Slot.whole).ConnectedIn s := fun _ => rfl
  have hsteady := Program.connectedThrough hconnected steadyRow (Run.start ⟨.empty, 0⟩)
  have hbroken := Program.connectedThrough hconnected brokenRow (Run.start ⟨.empty, 0⟩)
  rw [← sequence_in_turn _ _ _ (hconnected _) hsteady, ← sequence_in_turn _ _ _ (hconnected _) hbroken,
    Program.observe_of_connected (hconnected _), Program.observe_of_connected (hconnected _)]
  exact ⟨hconnected _, hsteady, hbroken, by decide +kernel, by decide +kernel⟩

end CasStore
