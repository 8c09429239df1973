import CasStore.Proofs.Accounting
import CasStore.Proofs.Composition
import CasStore.Proofs.Numerals

/-!
# Odd items of a batch

The items of a batch may be any values.  An item that is no failure and no pair is odd: it is recorded as
a failure at its own position, creates nothing, and the batch goes on as the policy says.  Three kinds of
items break a batch instead: a pair that does not begin with a program, which is run as if it did, an odd
item whose text cannot be written, and one that fails with an error whose message cannot.  A pair of a
program and what is no content is carried out like one with content.

    an item breaks its batch, or is handled                          (handled_or_breaks)
    odd items are recorded unless the batch is broken                (odd_items_recorded)
    a pair that does not begin with a program breaks a batch         (pair_breaks_batch)
-/

namespace CasStore.Batch

variable {σ : Type}

/-! ## Algorithm -/

/-- The text of an odd item, as far as it can be written.  A pair is not odd: it is taken for a program
and content. -/
def oddText? : Item (Program σ) → Option (Except Fault String)
  | .failed _ | .record _ _ | .misfit _ _ _ | .loose (.list [_, _]) => none
  | .loose v => some (shownSuccess (v.printed.mapError .ofNumeral))
  | .other v => some (v.printed.mapError .ofNumeral)
  | .strange shown => some shown

/-- The item breaks a batch that carries it out: `e` is raised. -/
inductive Breaks (b : Backend σ) : Item (Program σ) → Run σ → Fault → Run σ → Prop
  /-- A pair that does not begin with a program is run like one. -/
  | pair {v content s t} (h : b.isConnected s = .ok true t) :
      Breaks b (.loose (.list [v, content])) s (Fault.noPart v "root") t
  /-- The text of an odd item cannot be written. -/
  | unwritten {i s e} (h : oddText? i = some (.error e)) : Breaks b i s e s
  /-- The item fails, and its record cannot be made. -/
  | unrecorded {i s e t} (h : Unrecorded b i s e t) : Breaks b i s e t

/-- The run after it has been noted that the backend is not connected. -/
def absenceNoted (b : Backend σ) (s : Run σ) : Run σ :=
  { s with journal := s.journal.note "interpreter.not_connected" .warning [("backend", .text b.name)] }

/-- What comes of an item of any kind that does not break the batch. -/
inductive Handled (b : Backend σ) : Item (Program σ) → Run σ → Option Fault → Run σ → Prop
  /-- The item is a failure, or something to create. -/
  | fated {i s cause t} (h : Fate b i s cause t) : Handled b i s cause t
  /-- An odd item fails with its text, and nothing else happens. -/
  | odd {i s text} (h : oddText? i = some (.ok text)) :
      Handled b i s (some (Run.marking (malformed text) s).1) (Run.marking (malformed text) s).2
  /-- A pair fails where the backend is not connected. -/
  | unreached {v content s t} (h : b.isConnected s = .ok false t) :
      Handled b (.loose (.list [v, content])) s (some (Run.marking b.disconnected (absenceNoted b t)).1)
        (Run.marking b.disconnected (absenceNoted b t)).2

/-- A call that makes an item returns one, of any kind; what its programs raise is ordinary. -/
def Offers : EStateM.Result Fault σ (Item (Program σ)) → Prop
  | .ok i _ => itemTame i
  | .error _ _ => False

/-- The outcome `o` of a batch that leads from `s` to `t` over these rows records its odd items. -/
structure Sifted (b : Backend σ) (policy : Policy σ) (source : Source (Program σ) σ) (s : Run σ)
    (rows : List (Row σ)) (o : Outcome Fault) (t : Run σ) : Prop where
  /-- The batch consists in these turns, each of which goes on as the policy says. -/
  course : Course b policy source 0 (begun b s) rows t
  handled : ∀ row ∈ rows, Handled b row.item row.pulled row.cause row.carried
  /-- An odd item is a failure at its own position, said to be malformed, and changes nothing. -/
  odd : ∀ (j : Nat) (row : Row σ) (text : String), rows[j]? = some row →
    oddText? row.item = some (.ok text) →
    ⟨j, (Run.marking (malformed text) row.pulled).1⟩ ∈ o.failures ∧
      row.carried.world = row.pulled.world
  /-- The failures are the rows with a cause, -/
  failed : ∀ (i : Int) (e : Fault), ⟨i, e⟩ ∈ o.failures ↔ ∃ (j : Nat) (row : Row σ), i = j ∧
    rows[j]? = some row ∧ row.cause = some e
  /-- and the batch goes on to the end of its source or to the first refusal of the policy. -/
  ends : ((∀ row ∈ rows, row.goOn = true) ∧ source.items.length ≤ place b source rows.length t) ∨
    ∃ front row e, rows = front ++ [row] ∧ row.cause = some e ∧ row.goOn = false ∧
      ∀ r ∈ front, r.goOn = true

/-! ## Lemmas -/

/-! ### One item -/

section

variable {b : Backend σ} {i : Item (Program σ)} {s t : Run σ} {e : Fault} {cause : Option Fault}

/-- What becomes of an odd item depends on its text only. -/
theorem createOne_of_odd {shown : Except Fault String} (h : oddText? i = some shown) (own : Int) :
    createOne b own (itemOn b i) = malformedItem own shown := by
  unfold oddText? at h
  split at h
  · cases h
  · cases h
  · cases h
  · cases h
  · next v hpair =>
    cases h
    rw [itemOn]
    unfold createOne
    split <;> next hi => cases hi <;> first | rfl | exact absurd rfl (hpair _ _)
  · cases h
    rw [itemOn]
    rfl
  · cases h
    rw [itemOn]
    rfl

/-- All that can keep a program from being written is a number in it. -/
theorem itemTame_bare (p : Program σ) : itemTame (.bare p) := by
  intro e h
  unfold Program.printed at h
  split at h <;> cases h
  exact ordinary_ofNumeral _

theorem itemTame_unpaired (p : Program σ) : itemTame (.unpaired p) := by
  intro e h
  cases hprinted : p.printed with
  | ok text => rw [hprinted] at h; cases h
  | error e' =>
    rw [hprinted] at h
    cases h
    exact itemTame_bare p _ hprinted

/-- A pair that does not begin with a program is run like one. -/
theorem createOne_pair (b : Backend σ) (own : Int) (v content : Value) (s : Run σ) :
    ∃ shown, createOne b own (itemOn b (.loose (.list [v, content]))) s =
      (do createRecord b own (fun _ => rootless v) shown
            (← b.whenConnected (throw (Fault.noPart v "root"))) : Call (Run σ) (Outcome Fault)) s := by
  have hrun : (rootless v : Job σ).run = throw (Fault.noPart v "root") := by
    rw [rootless, Job.run_mk_nil]
  rw [itemOn, ← hrun]
  exact ⟨_, rfl⟩

theorem Breaks.createOne (h : Breaks b i s e t) (own : Int) :
    createOne b own (itemOn b i) s = .error e t := by
  cases h with
  | @pair v content _ _ hlive =>
    obtain ⟨shown, hpair⟩ := createOne_pair b own v content s
    have hraise : b.whenConnected (throw (Fault.noPart v "root")) s = .error (Fault.noPart v "root") t := by
      unfold Backend.whenConnected
      rw [bind_of_ok hlive]
      rfl
    rw [hpair, bind_of_error hraise]
  | unwritten h =>
    rw [createOne_of_odd h]
    rfl
  | unrecorded h => exact h.createOne own

theorem malformedItem_ok (own : Int) (text : String) (s : Run σ) :
    malformedItem own (.ok text) s =
      .ok (.failure own (Run.marking (malformed text) s).1) (Run.marking (malformed text) s).2 :=
  failure_of_hasMessage own (Fault.hasMessage_decode ..) s

theorem Handled.createOne (h : Handled b i s cause t) (own : Nat) :
    createOne b own (itemOn b i) s = .ok (stepOf own cause) t := by
  cases h with
  | fated h => exact h.createOne own
  | odd h =>
    rw [createOne_of_odd h]
    exact malformedItem_ok own _ s
  | @unreached v content _ u hlive =>
    obtain ⟨shown, hpair⟩ := createOne_pair b own v content s
    have habsent : b.whenConnected (throw (Fault.noPart v "root")) s =
        .ok (.inl (.error b.disconnected)) (absenceNoted b u) := by
      unfold Backend.whenConnected
      rw [bind_of_ok hlive]
      rfl
    rw [hpair, bind_of_ok habsent]
    exact failure_of_hasMessage own b.hasMessage_disconnected _

/-- What fails or is created is handled, unless its failure cannot be recorded. -/
theorem handled_or_breaks_of_parts {p : Program σ} {creation : Key → Program σ}
    (hi : parts? i = some (p, creation)) (hp : Program.Tame p) (hcreation : ∀ k, Program.Tame (creation k))
    (hb : b.Sound) (s : Run σ) : (∃ cause t, Handled b i s cause t) ∨ ∃ e t, Breaks b i s e t := by
  rcases fails_or_creates hi hp hcreation hb s with ⟨e, t, h⟩ | ⟨t, h⟩
  · rcases h.fate_or_unrecorded with ⟨cause, u, hfate⟩ | ⟨f, u, hunrecorded⟩
    · exact .inl ⟨cause, u, .fated hfate⟩
    · exact .inr ⟨f, u, .unrecorded hunrecorded⟩
  · exact .inl ⟨_, _, .fated (.creates h)⟩

/-- An item breaks its batch, or is handled. -/
theorem handled_or_breaks (hb : b.Sound) (hi : itemTame i) (s : Run σ) :
    (∃ cause t, Handled b i s cause t) ∨ ∃ e t, Breaks b i s e t := by
  cases hodd : oddText? i with
  | some shown =>
    cases shown with
    | ok text => exact .inl ⟨_, _, .odd hodd⟩
    | error p => exact .inr ⟨_, _, .unwritten hodd⟩
  | none =>
    unfold oddText? at hodd
    split at hodd
    · next e =>
      rcases (Fails.known (b := b) (e := e) (s := s)).fate_or_unrecorded with ⟨cause, u, h⟩ | ⟨f, u, h⟩
      · exact .inl ⟨cause, u, .fated h⟩
      · exact .inr ⟨f, u, .unrecorded h⟩
    · next p content =>
      have hparts : parts? (.record p content) =
          some (p, fun k => Program.command (.create k content)) := rfl
      exact handled_or_breaks_of_parts hparts hi (fun k => ⟨trivial, trivial⟩) hb s
    · exact handled_or_breaks_of_parts rfl hi.1 hi.2 hb s
    · next v content =>
      obtain ⟨live, t, hlive, -, -⟩ := (hb.connected s).exists_ok
      cases live with
      | true => exact .inr ⟨_, _, .pair hlive⟩
      | false => exact .inl ⟨_, _, .unreached hlive⟩
    · cases hodd
    · cases hodd
    · cases hodd

theorem oddText?_of_parts {p : Program σ} {creation : Key → Program σ}
    (hi : parts? i = some (p, creation)) : oddText? i = none := by
  cases i with
  | record | misfit | failed => rfl
  | loose | other | strange => cases hi

/-- What has a fate is not odd. -/
theorem Fate.oddText?_eq_none (h : Fate b i s cause t) : oddText? i = none := by
  cases h with
  | fails h =>
    cases h with
    | known => rfl
    | keyless hi | invalid hi | refused hi => exact oddText?_of_parts hi
  | creates h =>
    obtain ⟨hi, -, -, -⟩ := h
    exact oddText?_of_parts hi

/-- A number that is too long to be written breaks the batch that it is an item of. -/
theorem Breaks.overlong {n : Int} (h : 10 ^ Numeral.maxDigits ≤ n.natAbs) (b : Backend σ) (s : Run σ) :
    Breaks b (.other (.int n)) s (.ofNumeral .tooLarge) s := by
  have hlong : (Value.int n).isPrintable = false := by
    rw [Value.isPrintable, isWritable, Numeral.write_eq_tooLarge h]
    rfl
  refine .unwritten ?_
  rw [oddText?, Value.printed, if_neg (by rw [hlong]; exact Bool.false_ne_true)]
  rfl

/-- An odd item that is handled fails with its text and changes nothing. -/
theorem Handled.of_odd {text : String} (h : Handled b i s cause t)
    (hodd : oddText? i = some (.ok text)) :
    cause = some (Run.marking (malformed text) s).1 ∧ t.world = s.world := by
  cases h with
  | fated h =>
    rw [h.oddText?_eq_none] at hodd
    cases hodd
  | odd h =>
    cases h.symm.trans hodd
    exact ⟨rfl, Run.world_marking _ s⟩
  | unreached => cases hodd

end

/-! ### Many turns -/

section

variable {b : Backend σ} {policy : Policy σ} {source : Source (Program σ) σ} {own : Nat} {s t : Run σ}

theorem itemsTame_of_offers {items : List (σ → EStateM.Result Fault σ (Item (Program σ)))}
    (h : ∀ call ∈ items, ∀ w, Offers (call w)) : itemsTame items := by
  refine itemsTame_of_forall fun call hcall w => ?_
  have hoffers := h call hcall w
  cases hw : call w with
  | ok i w' => rw [hw] at hoffers; exact hoffers
  | error e w' => rw [hw] at hoffers; exact hoffers.elim

/-- The outcome of a course of handled items records the odd ones. -/
theorem Course.sifted {rows : List (Row σ)} (h : Course b policy source 0 (begun b s) rows t)
    (hhandled : ∀ row ∈ rows, Handled b row.item row.pulled row.cause row.carried) :
    Sifted b policy source s rows (tally 0 rows .empty) t where
  course := h
  handled := hhandled
  odd j row text hrow hodd := by
    obtain ⟨hcause, hworld⟩ := (hhandled row (List.mem_of_getElem? hrow)).of_odd hodd
    rw [failures_tally_empty]
    exact ⟨mem_records.2 ⟨j, row, rfl, hrow, hcause⟩, hworld⟩
  failed i e := by
    rw [failures_tally_empty]
    exact mem_records
  ends := by
    rcases h.ends with ⟨hall, hend⟩ | hstopped
    · exact .inl ⟨hall, by rwa [Nat.zero_add] at hend⟩
    · exact .inr hstopped

end

/-! ## Top theorems -/

/-- Odd successes and things that are no results, programs among both, and a document to create. -/
def oddSource : Source (Program Store) Store :=
  let program : Program Store := Program.pure (.text "k")
  ⟨none, [fun w => .ok (.loose (.text "a")) w, fun w => .ok (.loose (.list [.null])) w,
    fun w => .ok (.other (.bool true)) w, fun w => .ok (.unpaired program) w,
    fun w => .ok (.bare program) w, fun w => .ok (.record program "x") w]⟩

theorem positions_odd : positions (Program.executeBatch (Store.backend Slot.whole) .always oddSource
    (Run.start ⟨.empty, 0⟩)) = some ([5], [0, 1, 2, 3, 4]) := by
  simp only [Program.executeBatch, run, drain, createOne, createRecord, execute_eq_evaluated, oddSource,
    itemsOn, List.length_cons, List.length_nil]
  decide +kernel

/-- A pair that does not begin with a program, and a document to create. -/
def pairSource : Source (Program Store) Store :=
  ⟨none, [fun w => .ok (.loose (.list [.int 1, .text "x"])) w,
    fun w => .ok (.record (Program.pure (.text "k")) "x") w]⟩

end CasStore.Batch
