import CasStore.Proofs.Versions
import CasStore.Store.Backend

/-!
# Versions in memory

Every command on a store in memory is a move of what the store shows.  A store may be given up at any
time for one that goes on from its snapshot: where every stored version is at most the highest one, the
new store is the old one.

    a command is a move, and changes nothing when it fails           (turn_isMove)
    the highest version is at least every version a store starts with (bounded_ofStart)
    ofStart s.snapshot = s                                           (ofStart_snapshot)
-/

namespace CasStore

variable {σ : Type}

/-! ## Algorithm -/

/-- What is put into a part of a state is found there. -/
def Slot.Lawful {σ τ : Type} (slot : Slot σ τ) : Prop := ∀ a s, slot.get (slot.set a s) = a

/-- What a store in memory shows. -/
def Store.view (s : Store) : View := ⟨s.docs.find?, s.lastVersion⟩

namespace Store

/-- The content stored under a key. -/
def content? (k : Key) (s : Store) : Option String := (s.docs.find? k).map (·.content)

/-- What a command on the store answers. -/
def answered (s : Store) (c : Command) : Except Fault LooseResult :=
  match s.apply c with
  | .ok (a, _) => .ok (.inl (.ok a.toValue))
  | .error r => if r.isRaised then .error (r.fault c) else .ok (.inl (.error (r.fault c)))

/-- The store after a command, whether it is carried out or refused. -/
def afterCommand (s : Store) (c : Command) : Store :=
  match s.apply c with
  | .ok (_, s') => s'
  | .error _ => s

/-- Commands, each carried out on the store in `slot`. -/
def commands (slot : Slot σ Store) (cs : List Command) : List (Backend σ × Command) :=
  cs.map fun c => (backend slot, c)

end Store

/-! ## Lemmas -/

theorem Slot.lawful_whole : (Slot.whole : Slot σ σ).Lawful := fun _ _ => rfl

/-! ### The highest version -/

theorem Table.find?_eq_some_iff {m : DocMap} {k : Key} {d : Document} :
    m.find? k = some d ↔ (k, d) ∈ m.entries := by
  unfold find?
  rw [List.lookup_eq_some_iff]
  constructor
  · rintro ⟨front, back, h, -⟩
    rw [h]
    exact List.mem_append_right _ (List.mem_cons_self ..)
  · intro h
    obtain ⟨front, back, heq⟩ := List.append_of_mem h
    refine ⟨front, back, heq, fun p hp => ?_⟩
    have hnodup := m.nodup
    rw [heq, List.map_append, List.map_cons] at hnodup
    have hne := (List.nodup_append.1 hnodup).2.2 p.1 (List.mem_map_of_mem hp) k (List.mem_cons_self ..)
    rw [bne_iff_ne]
    exact Ne.symm hne

theorem le_foldl_max (vs : List Int) (v : Int) : v ≤ vs.foldl max v ∧ ∀ w ∈ vs, w ≤ vs.foldl max v := by
  induction vs generalizing v with
  | nil => exact ⟨Int.le_refl _, fun w hw => by cases hw⟩
  | cons u vs ih =>
    obtain ⟨hle, hall⟩ := ih (max v u)
    rw [List.foldl_cons]
    refine ⟨by omega, fun w hw => ?_⟩
    rcases List.mem_cons.1 hw with rfl | hw
    · omega
    · exact hall w hw

theorem foldl_max_le {vs : List Int} {v b : Int} (hv : v ≤ b) (h : ∀ w ∈ vs, w ≤ b) :
    vs.foldl max v ≤ b := by
  induction vs generalizing v with
  | nil => exact hv
  | cons u vs ih =>
    have hu := h u (List.mem_cons_self ..)
    exact ih (by omega) fun w hw => h w (List.mem_cons_of_mem _ hw)

theorem Table.le_highestVersion {m : DocMap} {k : Key} {d : Document} (h : m.find? k = some d) :
    d.version.number ≤ m.highestVersion := by
  have hmem : d.version.number ∈ m.entries.map (·.2.version.number) :=
    List.mem_map_of_mem (f := fun e : Key × Document => e.2.version.number) (find?_eq_some_iff.1 h)
  unfold highestVersion
  cases hvs : m.entries.map (·.2.version.number) with
  | nil => rw [hvs] at hmem; cases hmem
  | cons v vs =>
    obtain ⟨hle, hall⟩ := le_foldl_max vs v
    rw [hvs] at hmem
    rcases List.mem_cons.1 hmem with h | h
    · rw [h]; exact hle
    · exact hall _ h

theorem Table.highestVersion_le {m : DocMap} {b : Int} (hb : 0 ≤ b)
    (h : ∀ k d, m.find? k = some d → d.version.number ≤ b) : m.highestVersion ≤ b := by
  have hall : ∀ v ∈ m.entries.map (·.2.version.number), v ≤ b := by
    intro v hv
    obtain ⟨⟨k, d⟩, hmem, rfl⟩ := List.mem_map.1 hv
    exact h k d (find?_eq_some_iff.2 hmem)
  unfold highestVersion
  split
  · exact hb
  · next v vs hvs =>
    rw [hvs] at hall
    exact foldl_max_le (hall v (List.mem_cons_self ..)) fun w hw => hall w (List.mem_cons_of_mem _ hw)

namespace Store

theorem bounded_ofStart (m : StartMap) : (ofStart m).view.Bounded := by
  intro k d hd
  have := Table.le_highestVersion (m := m.docs) hd
  simp only [view, ofStart, StartMap.highWater]
  omega

theorem nonneg_ofStart {m : StartMap} (h : ∀ v ∈ m.lastVersion, 0 ≤ v) : 0 ≤ (ofStart m).lastVersion := by
  unfold ofStart StartMap.highWater
  cases hv : m.lastVersion with
  | none => simp only [Option.getD_none]; omega
  | some v =>
    have := h v hv
    simp only [Option.getD_some]
    omega

theorem le_ofStart {m : StartMap} {v : Int} (h : m.lastVersion = some v) :
    v ≤ (ofStart m).lastVersion := by
  unfold ofStart StartMap.highWater
  rw [h, Option.getD_some]
  exact Int.le_max_right ..

/-- A store that goes on from a snapshot is the store itself. -/
theorem ofStart_snapshot {s : Store} (hb : s.view.Bounded) (h : 0 ≤ s.lastVersion) :
    ofStart s.snapshot = s := by
  have := Table.highestVersion_le h hb
  have hmax : max s.docs.highestVersion s.lastVersion = s.lastVersion := by omega
  unfold ofStart snapshot StartMap.highWater
  rw [Option.getD_some, hmax]

theorem content?_write {s : Store} {k : Key} (content : String) :
    (s.write k content).2.content? k = some content := by
  rw [content?, find?_write, if_pos rfl]
  rfl

/-! ### Commands are moves -/

theorem view_write (s : Store) (k : Key) (content : String) :
    (s.write k content).2.view = s.view.put k (s.view.next content) := by
  unfold view View.put
  congr 1
  funext l
  exact find?_write ..

theorem view_erase (s : Store) (k : Key) : view { s with docs := s.docs.erase k } = s.view.drop k := by
  unfold view View.drop
  congr 1
  funext l
  exact Table.find?_erase ..

theorem isSome_of_contains {s : Store} {k : Key} (h : s.docs.contains k = true) :
    ∃ d, s.view.doc? k = some d :=
  Option.isSome_iff_exists.1 h

theorem writeCounter_move {s s' : Store} {k : Key} {i delta : Int} {a : Answer}
    (h : s.writeCounter k i = .ok (a, s')) :
    Move s.view (.increment k delta) (.ok (.inl (.ok a.toValue))) s'.view := by
  unfold writeCounter at h
  split at h
  · cases h
  · next content _ =>
    cases h
    rw [view_write]
    exact .increased

theorem apply_move {s s' : Store} {c : Command} {a : Answer} (h : s.apply c = .ok (a, s')) :
    Move s.view c (.ok (.inl (.ok a.toValue))) s'.view := by
  cases c with
  | get k =>
    simp only [apply] at h
    split at h
    · cases h
    · next d hd => cases h; exact .read hd
  | create k content =>
    simp only [apply] at h
    split at h
    · cases h
    · next hk =>
      cases h
      rw [view_write]
      exact .created (Option.not_isSome_iff_eq_none.1 hk)
  | update k content w =>
    simp only [apply] at h
    split at h
    · cases h
    · next d hd =>
      split at h
      · cases h
      · next hw =>
        cases h
        rw [view_write]
        refine .updated hd fun hset => ?_
        rw [hset, Bool.true_and, bne_iff_ne, Decidable.not_not] at hw
        exact hw.symm
  | remove k =>
    simp only [apply] at h
    split at h
    · next hk =>
      cases h
      obtain ⟨d, hd⟩ := isSome_of_contains hk
      rw [view_erase]
      exact .removed hd
    · cases h
  | getCounter k =>
    simp only [apply] at h
    split at h
    · cases h
    · split at h
      · cases h
      · cases h; exact .counted
  | increment k delta =>
    simp only [apply] at h
    split at h
    · exact writeCounter_move h
    · split at h
      · cases h
      · exact writeCounter_move h

theorem answered_move (s : Store) (c : Command) :
    Move s.view c (s.answered c) (s.afterCommand c).view := by
  unfold answered afterCommand
  cases h : s.apply c with
  | ok as => exact apply_move h
  | error r =>
    refine .failed fun x => ?_
    simp only
    split <;> exact nofun

variable {slot : Slot σ Store}

theorem get_turn (hslot : slot.Lawful) (c : Command) (s : Run σ) :
    slot.get ((backend slot).turn c s).after.world = (slot.get s.world).afterCommand c := by
  simp only [Backend.turn, backend, perform, afterCommand]
  cases (slot.get s.world).apply c with
  | ok as => exact hslot ..
  | error r =>
    simp only
    split
    · next heq => split at heq <;> cases heq; rfl
    · next heq => split at heq <;> cases heq; rfl

theorem answer_turn (slot : Slot σ Store) (c : Command) (s : Run σ) :
    ((backend slot).turn c s).answer = (slot.get s.world).answered c := by
  simp only [Backend.turn, backend, perform, answered]
  cases (slot.get s.world).apply c with
  | ok as => rfl
  | error r =>
    simp only
    by_cases hraised : r.isRaised = true
    · rw [if_pos hraised, if_pos hraised]
    · rw [if_neg hraised, if_neg hraised]

/-- A command that is refused leaves the whole world as it is. -/
theorem world_turn_of_failed {c : Command} {s : Run σ} (h : ¬ ((backend slot).turn c s).Succeeds) :
    ((backend slot).turn c s).after.world = s.world := by
  cases hr : (slot.get s.world).apply c with
  | ok as =>
    refine absurd ⟨as.1.toValue, ?_⟩ h
    rw [Turn.Answers, answer_turn, answered, hr]
  | error r =>
    simp only [Backend.turn, backend, perform, hr]
    by_cases hraised : r.isRaised = true
    · rw [if_pos hraised]
    · rw [if_neg hraised]

/-- A command on a store in memory is a move, and changes nothing when it fails. -/
theorem turn_isMove (hslot : slot.Lawful) (c : Command) (s : Run σ) :
    ((backend slot).turn c s).IsMove fun w => (slot.get w).view := by
  refine ⟨?_, fun hfail => ?_⟩
  · rw [Backend.command_turn, Backend.before_turn, answer_turn, get_turn hslot]
    exact answered_move ..
  · rw [Backend.before_turn]
    exact world_turn_of_failed hfail

/-- A backend in memory is always connected. -/
theorem whenConnected_backend (slot : Slot σ Store) (work : Call (Run σ) LooseResult) :
    (backend slot).whenConnected work = work := rfl

/-- A command that is carried out is dispatched to its answer. -/
theorem dispatch_of_ok {c : Command} {s : Run σ} {a : Answer} {store : Store}
    (h : (slot.get s.world).apply c = .ok (a, store)) :
    ∃ t, (backend slot).dispatch c s = .ok (.inl (.ok a.toValue)) t ∧
      t.world = slot.set store s.world ∧ t.cursors = s.cursors := by
  let noted : Run σ := { s with
    journal := s.journal.note "interpreter.command" .debug (("backend", .text "memory") :: c.summary) }
  have hperform : perform slot c noted =
      .ok (.inl (.ok a.toValue)) { noted with world := slot.set store s.world } := by
    unfold perform
    rw [show slot.get noted.world = slot.get s.world from rfl, h]
  refine ⟨{ noted with world := slot.set store s.world }, ?_, rfl, rfl⟩
  show Call.recover (perform slot c) _ noted = _
  unfold Call.recover
  rw [hperform]

/-- A command that is refused is dispatched to an error, and leaves the world as it is. -/
theorem dispatch_of_error {c : Command} {s : Run σ} {r : Refusal}
    (h : (slot.get s.world).apply c = .error r) :
    ∃ e t, (backend slot).dispatch c s = .ok (.inl (.error e)) t ∧ t.world = s.world ∧
      t.cursors = s.cursors := by
  let noted : Run σ := { s with
    journal := s.journal.note "interpreter.command" .debug (("backend", .text "memory") :: c.summary) }
  have hperform : perform slot c noted =
      if r.isRaised then .error (r.fault c) noted else .ok (.inl (.error (r.fault c))) noted := by
    unfold perform
    rw [show slot.get noted.world = slot.get s.world from rfl, h]
  show ∃ e t, Call.recover (perform slot c) _ noted = _ ∧ _ ∧ _
  unfold Call.recover
  rw [hperform]
  -- a number that is too long is raised, and the dispatch makes a result of that
  cases r with
  | numeral p => exact ⟨_, _, rfl, rfl, rfl⟩
  | absent | present | stale | notCounter => exact ⟨_, noted, rfl, rfl, rfl⟩

/-- Commands on a store in memory are moves, one after another. -/
theorem moves (hslot : slot.Lawful) (cs : List Command) (s : Run σ) :
    Moves (fun w => (slot.get w).view) s (turns (commands slot cs) s)
      (afterTurns (commands slot cs) s) := by
  induction cs generalizing s with
  | nil => exact .nil s
  | cons c cs ih =>
    have hcons := Moves.cons (turn_isMove hslot c s) (ih ((backend slot).turn c s).after)
    rw [Backend.before_turn] at hcons
    exact hcons

end Store

end CasStore
