import CasStore.Program.Chain
import CasStore.Proofs.Evaluation
import CasStore.Store.Backend

/-!
# How high the stack grows

A run keeps a frame for each pipeline that it is in.  Frames that are used up go before another one is put
on top, so every frame below the top one has a stage left to run: pipelines that are entered by last
stages do not pile up, however long a chain of them is.

    every frame below the top one has a stage left                   (Pending.kept_flat)
    so there are at most as many as stages around, and one           (Pending.Flat.length_le)
    a program that nests d deep runs in d + 1 frames                 (Pending.Fits.length_le)
    chains and shallow programs of any length run in two             (stack_flat)
-/

namespace CasStore

variable {ρ σ : Type}

/-! ## Algorithm -/

namespace Pending

/-- Every frame below the top one has a stage left to run. -/
def Flat (fs : Pending ρ σ) : Prop := ∀ ss ∈ fs.tail, ss ≠ []

/-- The number of stages left in the pipelines around the one that runs. -/
def around (fs : Pending ρ σ) : Nat := fs.tail.flatten.length

/-- A property of stacks that no turn of a run takes away. -/
structure Kept (P : Pending ρ σ → Prop) : Prop where
  nil : P []
  tail : ∀ {fs}, P fs → P fs.tail
  after : ∀ {fs gs}, P fs → After gs fs → P gs

end Pending

/-- Pipelines are entered at most `d` deep by the stages, where what a last stage enters is no deeper than
the stage itself. -/
inductive Nests : Nat → List (Stage ρ σ) → Prop
  | nil {d} : Nests d []
  | last {d st} (h : ∀ p : Pipeline ρ σ, st.Yields p → Nests d p.stages) : Nests d [st]
  | cons {d st ss} (h : ∀ p : Pipeline ρ σ, st.Yields p → Nests d p.stages) (hss : Nests (d + 1) ss) :
      Nests (d + 1) (st :: ss)

/-- Each frame nests no deeper than is left of `d` above the frames below it. -/
def Pending.Fits (d : Nat) : Pending ρ σ → Prop
  | [] => True
  | ss :: outer => (∃ e, e + outer.length ≤ d ∧ Nests e ss) ∧ Fits d outer

namespace Pipeline

/-- The pipeline has at most one stage, and so has every pipeline that it goes on with. -/
inductive Chain : Pipeline ρ σ → Prop
  | ends {root} : Chain (.mk root [])
  | goesOn {root st} (h : ∀ p : Pipeline ρ σ, st.Yields p → Chain p) : Chain (.mk root [st])

/-- The pipelines that the stages answer with have no stages. -/
def Shallow (p : Pipeline ρ σ) : Prop := ∀ st ∈ p.stages, ∀ q, st.Yields q → q.stages = []

end Pipeline

namespace Loop

/-- In the turn that comes next the stack may be `fs`: as it is, without its top frame, or as the turn may
leave it, which is also how it is while the root of an entered pipeline is called. -/
def Holds (l : Loop σ) (fs : Pending (Call (Run σ) LooseResult) σ) : Prop :=
  fs = l.frames ∨ fs = l.frames.tail ∨ After fs l.frames

end Loop

/-! ## Lemmas -/

namespace Pending

theorem Flat.length_le {fs : Pending ρ σ} (h : fs.Flat) : fs.length ≤ 1 + fs.around := by
  have hstages : ∀ gs : Pending ρ σ, (∀ ss ∈ gs, ss ≠ []) → gs.length ≤ gs.flatten.length := by
    intro gs
    induction gs with
    | nil => intro _; exact Nat.zero_le _
    | cons ss gs ih =>
      intro hne
      have hss := List.length_pos_iff.2 (hne ss (List.mem_cons_self ..))
      have hgs := ih fun ss' hss' => hne ss' (List.mem_cons_of_mem _ hss')
      rw [List.length_cons, List.flatten_cons, List.length_append]
      omega
  have htail := hstages fs.tail h
  rw [List.length_tail] at htail
  unfold around
  omega

/-- Where no frame is used up, none is dropped. -/
theorem trim_eq_self {fs : Pending ρ σ} (h : ∀ ss ∈ fs, ss ≠ []) : fs.trim = fs := by
  cases fs with
  | nil => rfl
  | cons ss fs =>
    cases ss with
    | nil => exact absurd rfl (h [] (List.mem_cons_self ..))
    | cons st ss => rfl

/-- What is left after used-up frames are dropped: all the frames, unless the top one is used up. -/
theorem Flat.trim_cons {ss : List (Stage ρ σ)} {outer : Pending ρ σ} (h : Flat (ss :: outer)) :
    trim (ss :: outer) = if ss = [] then outer else ss :: outer := by
  cases ss with
  | nil => exact trim_eq_self h
  | cons st ss => rfl

/-- Every frame below the top one has a stage left: a stage that enters a pipeline may have been the last
of its frame, but then the frame is dropped before another is put on it. -/
theorem kept_flat : Kept (Flat : Pending ρ σ → Prop) where
  nil := by intro ss hss; cases hss
  tail h := fun ss hss => h ss (List.mem_of_mem_tail hss)
  after := by
    intro fs gs h hafter
    cases hafter with
    | pop => exact fun ss hss => h ss (List.mem_of_mem_tail hss)
    | pass => exact h
    | @enter st ss outer p hp =>
      -- the stage that entered `p` may have been the last of its frame
      have hrest : Flat (ss :: outer) := h
      show ∀ ss' ∈ trim (ss :: outer), ss' ≠ []
      rw [hrest.trim_cons]
      split
      · exact h
      · next hne =>
        intro ss' hss'
        rcases List.mem_cons.1 hss' with rfl | hmem
        · exact hne
        · exact h ss' hmem

theorem Fits.length_le {d : Nat} {fs : Pending ρ σ} (h : fs.Fits d) : fs.length ≤ d + 1 := by
  cases fs with
  | nil => exact Nat.zero_le _
  | cons ss outer =>
    obtain ⟨⟨e, he, -⟩, -⟩ := h
    rw [List.length_cons]
    omega

end Pending

namespace Nests

theorem rest {d : Nat} {st : Stage ρ σ} {ss : List (Stage ρ σ)} (h : Nests d (st :: ss)) :
    Nests d ss := by
  cases h with
  | last => exact .nil
  | cons _ hss => exact hss

theorem of_chain {p : Pipeline ρ σ} (h : p.Chain) : Nests 0 p.stages := by
  induction h with
  | ends => exact .nil
  | goesOn _ ih => exact .last ih

theorem of_shallow {p : Pipeline ρ σ} (h : p.Shallow) : Nests 1 p.stages := by
  have hall : ∀ ss : List (Stage ρ σ), (∀ st ∈ ss, ∀ q, st.Yields q → q.stages = []) → Nests 1 ss := by
    intro ss
    induction ss with
    | nil => intro _; exact .nil
    | cons st ss ih =>
      intro hss
      refine .cons (fun q hq => ?_) (ih fun st' hst' => hss st' (List.mem_cons_of_mem _ hst'))
      rw [hss st (List.mem_cons_self ..) q hq]
      exact .nil
  exact hall p.stages h

end Nests

namespace Pending

/-- A frame is put on top of one that nests deeper than it, or takes the place of one that is used up. -/
theorem kept_fits (d : Nat) : Kept fun fs : Pending ρ σ => fs.Flat ∧ fs.Fits d where
  nil := ⟨kept_flat.nil, trivial⟩
  tail := by
    rintro fs ⟨hflat, hfits⟩
    refine ⟨kept_flat.tail hflat, ?_⟩
    cases fs with
    | nil => trivial
    | cons ss outer => exact hfits.2
  after := by
    rintro fs gs ⟨hflat, hfits⟩ hafter
    refine ⟨kept_flat.after hflat hafter, ?_⟩
    cases hafter with
    | pop => exact hfits.2
    | pass =>
      obtain ⟨⟨e, he, hnests⟩, houter⟩ := hfits
      exact ⟨⟨e, he, hnests.rest⟩, houter⟩
    | @enter st ss outer p hp =>
      have hrest : Flat (ss :: outer) := hflat
      obtain ⟨⟨e, he, hnests⟩, houter⟩ := hfits
      rw [hrest.trim_cons]
      cases hnests with
      | last h => exact ⟨⟨e, he, h p hp⟩, houter⟩
      | @cons e' _ _ h hss =>
        -- one level deeper than before, unless the frame below is dropped
        split
        · exact ⟨⟨e', by omega, h p hp⟩, houter⟩
        · exact ⟨⟨e', by rw [List.length_cons]; omega, h p hp⟩, ⟨⟨e' + 1, he, hss⟩, houter⟩⟩

end Pending

namespace Loop

variable {P : Pending (Call (Run σ) LooseResult) σ → Prop}

theorem kept_turns (hP : Pending.Kept P) {l : Loop σ} (h : P l.frames) (n : Nat) :
    P (turns n l).frames := by
  induction n generalizing l with
  | zero => exact h
  | succ n ih =>
    refine ih ?_
    cases l with
    | ended x => exact hP.nil
    | running fs r s =>
      cases ht : (running fs r s).turn with
      | ended x => exact hP.nil
      | running fs' r' s' => exact hP.after h (after_turn ht)

theorem Holds.kept (hP : Pending.Kept P) {l : Loop σ} (h : P l.frames)
    {fs : Pending (Call (Run σ) LooseResult) σ} (hfs : l.Holds fs) : P fs := by
  rcases hfs with rfl | rfl | hafter
  · exact h
  · exact hP.tail h
  · exact hP.after h hafter

/-- Whatever holds of the stages of a job alone and is kept holds of every stack of its run. -/
theorem kept_run (hP : Pending.Kept P) {j : Job σ} (h : P [j.stages]) (s : Run σ) (n : Nat)
    {fs : Pending (Call (Run σ) LooseResult) σ} (hfs : (turns n (start j s)).Holds fs) : P fs := by
  refine hfs.kept hP (kept_turns hP ?_ n)
  unfold start goOn
  cases j.root s with
  | ok r s => exact h
  | error e s => exact hP.nil

end Loop

/-! ### Programs on a backend -/

theorem Stage.yields_of_andThen {f : Value → σ → EStateM.Result Fault σ (Next (Pipeline ρ σ))} {v : Value}
    {s s' : σ} {p : Pipeline ρ σ} (h : f v s = .ok (.program p) s') : (Stage.andThen f).Yields p :=
  ⟨.ok v, s, s', by simp only [react, h, follow]⟩

theorem Stage.yields_of_orElse {f : Fault → σ → EStateM.Result Fault σ (Next (Pipeline ρ σ))} {e : Fault}
    {s s' : σ} {p : Pipeline ρ σ} (h : f e s = .ok (.program p) s') : (Stage.orElse f).Yields p :=
  ⟨.error e, s, s', by simp only [react, h, follow]⟩

theorem replyOn_eq_program {b : Backend σ} {x : EStateM.Result Fault σ (Next (Program σ))} {q : Job σ}
    {s : σ} (h : replyOn b x = .ok (.program q) s) :
    ∃ p, x = .ok (.program p) s ∧ q = Program.on b p := by
  cases x with
  | error e s => cases h
  | ok n s =>
    cases n with
    | program p => cases h; exact ⟨p, rfl, rfl⟩
    | value v => cases h

/-- What a stage enters on a backend is what it enters, bound to the backend. -/
theorem yields_stageOn {b : Backend σ} {st : Stage (Root σ) σ} {q : Job σ} (h : (stageOn b st).Yields q) :
    ∃ p : Program σ, st.Yields p ∧ q = Program.on b p := by
  cases st with
  | map f => exact absurd h Stage.not_yields_map
  | mapErr f => exact absurd h Stage.not_yields_mapErr
  | andThen f =>
    obtain ⟨v, s, s', hf⟩ := Stage.yields_andThen h
    obtain ⟨p, hp, rfl⟩ := replyOn_eq_program hf
    exact ⟨p, Stage.yields_of_andThen hp, rfl⟩
  | orElse f =>
    obtain ⟨e, s, s', hf⟩ := Stage.yields_orElse h
    obtain ⟨p, hp, rfl⟩ := replyOn_eq_program hf
    exact ⟨p, Stage.yields_of_orElse hp, rfl⟩

theorem stages_on (b : Backend σ) (p : Program σ) : (Program.on b p).stages = stagesOn b p.stages := by
  cases p
  rfl

theorem Nests.stagesOn {b : Backend σ} {d : Nat} {ss : List (Stage (Root σ) σ)} (h : Nests d ss) :
    Nests d (stagesOn b ss) := by
  induction h with
  | nil => exact .nil
  | last _ ih =>
    refine .last fun q hq => ?_
    obtain ⟨p, hp, rfl⟩ := yields_stageOn hq
    rw [stages_on]
    exact ih p hp
  | cons _ _ ih ihss =>
    refine .cons (fun q hq => ?_) ihss
    obtain ⟨p, hp, rfl⟩ := yields_stageOn hq
    rw [stages_on]
    exact ih p hp

/-! ### Long chains -/

namespace Program

theorem chain_countdown (n : Nat) : (countdown n : Program σ).Chain := by
  induction n with
  | zero => exact .ends
  | succ n ih =>
    refine .goesOn fun p hp => ?_
    obtain ⟨v, s, s', h⟩ := Stage.yields_andThen hp
    cases h
    exact ih

theorem shallow_counting (n : Nat) : (counting n : Program σ).Shallow := by
  intro st hst q hq
  rw [List.eq_of_mem_replicate hst] at hq
  obtain ⟨v, s, s', h⟩ := Stage.yields_andThen hq
  unfold increase at h
  split at h
  · cases h; rfl
  · cases h

end Program

/-! ## Top theorems -/

/-- A run consists in its turns, and its stack stays flat at any time of any of them: every frame below the
top one has a stage left, so there are no more of them than stages of the pipelines around.  A program that
nests `d` deep never has more than `d + 1` frames, which are two for shallow programs, and two at most for
chains. -/
theorem stack_flat (b : Backend σ) (p : Program σ) :
    (∀ n, p.execute b =
      b.whenConnected fun s => (Loop.turns n (Loop.start (Program.on b p) s)).run) ∧
    ∀ s n fs, (Loop.turns n (Loop.start (Program.on b p) s)).Holds fs →
      fs.Flat ∧ fs.length ≤ 1 + fs.around ∧ (∀ d, Nests d p.stages → fs.length ≤ d + 1) ∧
        (p.Chain ∨ p.Shallow → fs.length ≤ 2) := by
  refine ⟨fun n => ?_, fun s n fs hfs => ?_⟩
  · simp only [Loop.run_turns]
    rfl
  · have hflat := Loop.kept_run Pending.kept_flat (fun _ hss => by cases hss) s n hfs
    have hfits : ∀ d, Nests d p.stages → fs.length ≤ d + 1 := by
      intro d hd
      have hstart : Pending.Flat [(Program.on b p).stages] ∧ Pending.Fits d [(Program.on b p).stages] := by
        refine ⟨(by intro ss hss; cases hss), ⟨d, Nat.le_refl _, ?_⟩, trivial⟩
        rw [stages_on]
        exact hd.stagesOn
      exact (Loop.kept_run (Pending.kept_fits d) hstart s n hfs).2.length_le
    refine ⟨hflat, hflat.length_le, hfits, ?_⟩
    rintro (hchain | hshallow)
    · exact Nat.le_succ_of_le (hfits 0 (.of_chain hchain))
    · exact hfits 1 (.of_shallow hshallow)

/-- A countdown is a chain and counting is shallow, so two frames are enough for either. -/
theorem countdown_flat : (Program.countdown 3 : Program Store).Chain ∧
    (Program.counting 3 : Program Store).Shallow ∧
    ∀ p : Program Store, p = Program.countdown 3 ∨ p = Program.counting 3 → ∀ s n fs,
      (Loop.turns n (Loop.start (Program.on (Store.backend Slot.whole) p) s)).Holds fs →
        fs.length ≤ 2 := by
  have hchain := Program.chain_countdown (σ := Store) 3
  have hshallow := Program.shallow_counting (σ := Store) 3
  refine ⟨hchain, hshallow, ?_⟩
  rintro p (rfl | rfl) s n fs hfs
  · exact ((stack_flat (Store.backend Slot.whole) (Program.countdown 3)).2 s n fs hfs).2.2.2 (.inl hchain)
  · exact ((stack_flat (Store.backend Slot.whole) (Program.counting 3)).2 s n fs hfs).2.2.2 (.inr hshallow)

end CasStore
