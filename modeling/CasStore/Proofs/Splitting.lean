import CasStore.Proofs.Sessions

/-!
# Splitting a session

Programs may be run one after another on one store in memory, or each by itself on the map that the one
before it returned.  The snapshot carries all that a store holds, and the highest version is found again
from it exactly, so both ways come to the same: in the results, in the documents and in the version of
the next write.

    a hand-over gives back the very store                            (executeWithState_of_ofStart)
    split or not, the ends are the same                              (sameEnd_executeAll)
-/

namespace CasStore

variable {σ : Type}

/-! ## Algorithm -/

/-- What is put into a part of a state is found there, and putting back what was found changes nothing. -/
structure Slot.Faithful {σ τ : Type} (slot : Slot σ τ) : Prop where
  lawful : slot.Lawful
  restore : ∀ s, slot.set (slot.get s) s = s

namespace Store

/-- Runs programs one after another on the one store in `slot`. -/
def executeAll (slot : Slot σ Store) : List (Program σ) → Call (Run σ) (List LooseResult)
  | [] => return []
  | p :: ps => do
    let r ← p.execute (backend slot)
    let rs ← executeAll slot ps
    return r :: rs

/-- Runs programs one after another, each on the map that the one before it returned. -/
def executeEach (slot : Slot σ Store) :
    List (Program σ) → StartMap → Call (Run σ) (List LooseResult × StartMap)
  | [], m => return ([], m)
  | p :: ps, m => do
    let (r, m) ← executeWithState slot p m
    let (rs, m) ← executeEach slot ps m
    return (r :: rs, m)

/-- The programs on one store and the programs on a map each end in the same run: with the same results,
the last map holding the store's documents and its highest version, or with the same error. -/
inductive SameEnd (slot : Slot σ Store) :
    Reply (Run σ) (List LooseResult) → Reply (Run σ) (List LooseResult × StartMap) → Prop
  | returned {rs m t} (hdocs : m.docs = (slot.get t.world).docs)
      (hmark : m.highWater = (slot.get t.world).lastVersion) :
      SameEnd slot (.ok rs t) (.ok (rs, m) t)
  | raised {e t} : SameEnd slot (.error e t) (.error e t)

end Store

/-! ## Lemmas -/

/-- What lies outside the store changes only as the program's own functions change it. -/
theorem Follows.part {τ : Type} {slot : Slot σ Store} {part : σ → τ}
    (hpart : ∀ a w, part (slot.set a w) = part w) :
    Follows (fun s t : Run σ => part t.world = part s.world) (fun w w' => part w' = part w)
      (Store.backend slot) where
  trans h h' := h'.trans h
  quiet hworld _ := by rw [hworld]
  world _ _ h := h
  connected _ := rfl
  dispatch c := by
    refine keeps_dispatch (fun h h' => h'.trans h) (fun hworld _ => by rw [hworld]) fun s => ?_
    show part (Reply.left (Store.perform slot c _)).world = part s.world
    unfold Store.perform
    split
    · exact hpart ..
    · split <;> rfl

namespace Store

variable {slot : Slot σ Store}

theorem executeWithState_part {τ : Type} {part : σ → τ} (hpart : ∀ a w, part (slot.set a w) = part w)
    {p : Program σ} (hp : Program.Within (fun w w' => part w' = part w) p) (m : StartMap) (s : Run σ) :
    part (Reply.left (executeWithState slot p m s)).world = part s.world := by
  have hrun := keeps_execute (Follows.part hpart) hp
    { s with world := slot.set (ofStart m) s.world }
  rw [ByCommands.executeWithState_eq]
  cases h : p.execute (backend slot) { s with world := slot.set (ofStart m) s.world } with
  | ok r t => rw [h] at hrun; exact hrun.trans (hpart ..)
  | error e t => rw [h] at hrun; exact hrun.trans (hpart ..)

/-- On a map that goes on to the very store, a program runs as it does on the store. -/
theorem executeWithState_of_ofStart (hslot : slot.Faithful) {m : StartMap} {s : Run σ}
    (hm : ofStart m = slot.get s.world) (p : Program σ) :
    executeWithState slot p m s =
      match p.execute (backend slot) s with
      | .ok r t => .ok (r, (slot.get t.world).snapshot) t
      | .error e t => .error e t := by
  have hs : ({ s with world := slot.set (ofStart m) s.world } : Run σ) = s := by
    rw [hm, hslot.restore]
  have hrun := @ByCommands.executeWithState_eq σ slot p m s
  rw [hs] at hrun
  exact hrun

/-- A program leaves a sound store sound. -/
theorem Sound.execute (hslot : slot.Lawful) {p : Program σ}
    (hp : Program.Within (fun w w' => slot.get w' = slot.get w) p) {s t : Run σ} {r : LooseResult}
    (hs : (slot.get s.world).Sound) (h : p.execute (backend slot) s = .ok r t) :
    (slot.get t.world).Sound := by
  obtain ⟨cs, hcs, -⟩ := ByCommands.execute hslot hp s
  rw [h] at hcs
  show (slot.get (Reply.left (.ok r t : Reply (Run σ) LooseResult)).world).Sound
  rw [hcs]
  exact hs.afterCommands cs

/-- One program more in front: both ways run it alike and go on from where it ends. -/
theorem SameEnd.cons (hslot : slot.Faithful) {p : Program σ} {ps : List (Program σ)} {m : StartMap}
    {s : Run σ} (hm : ofStart m = slot.get s.world)
    (hrest : ∀ r t, p.execute (backend slot) s = .ok r t →
      SameEnd slot (executeAll slot ps t) (executeEach slot ps (slot.get t.world).snapshot t)) :
    SameEnd slot (executeAll slot (p :: ps) s) (executeEach slot (p :: ps) m s) := by
  have hstep := executeWithState_of_ofStart hslot hm p
  show SameEnd slot (EStateM.bind (p.execute (backend slot)) _ s)
    (EStateM.bind (executeWithState slot p m) _ s)
  unfold EStateM.bind
  rw [hstep]
  cases h : p.execute (backend slot) s with
  | error e t => exact .raised
  | ok r t =>
    have ih := hrest r t h
    show SameEnd slot (EStateM.bind (executeAll slot ps) _ t)
      (EStateM.bind (executeEach slot ps (slot.get t.world).snapshot) _ t)
    unfold EStateM.bind
    revert ih
    generalize executeAll slot ps t = x
    generalize executeEach slot ps (slot.get t.world).snapshot t = y
    rintro (⟨hdocs, hmark⟩ | _)
    · exact .returned hdocs hmark
    · exact .raised

theorem sameEnd_executeAll (hslot : slot.Faithful) {ps : List (Program σ)}
    (hps : ∀ p ∈ ps, Program.Within (fun w w' => slot.get w' = slot.get w) p) {m : StartMap}
    {s : Run σ} (hm : ofStart m = slot.get s.world) (hs : (slot.get s.world).Sound) :
    SameEnd slot (executeAll slot ps s) (executeEach slot ps m s) := by
  induction ps generalizing m s with
  | nil => exact .returned (congrArg Store.docs hm) (congrArg Store.lastVersion hm)
  | cons p ps ih =>
    refine .cons hslot hm fun r t h => ?_
    have ht := hs.execute hslot.lawful (hps p (List.mem_cons_self ..)) h
    -- a sound store is given back by its snapshot, so the next program starts from the same store
    exact ih (fun q hq => hps q (List.mem_cons_of_mem _ hq)) (ofStart_snapshot ht.bounded ht.nonneg) ht

end Store

/-! ## Top theorems -/

/-- Programs on one store come to the same as the programs each run on the map that the one before it
returned, and no such run changes the map it was given, wherever the world keeps that map. -/
theorem splitting_changes_nothing (slot : Slot σ Store) (hslot : slot.Faithful) (m : StartMap)
    (hm : ∀ v ∈ m.lastVersion, 0 ≤ v) (ps : List (Program σ))
    (hps : ∀ p ∈ ps, Program.Within (fun w w' => slot.get w' = slot.get w) p) (s : Run σ)
    (hs : slot.get s.world = Store.ofStart m) :
    Store.SameEnd slot (Store.executeAll slot ps s) (Store.executeEach slot ps m s) ∧
      ∀ given : σ → StartMap, (∀ a w, given (slot.set a w) = given w) →
        ∀ p, Program.Within (fun w w' => given w' = given w) p → ∀ t : Run σ,
          given (Reply.left (Store.executeWithState slot p (given t.world) t)).world =
            given t.world := by
  refine ⟨Store.sameEnd_executeAll hslot hps hs.symm (hs ▸ Store.sound_ofStart hm), ?_⟩
  intro given hgiven p hp t
  exact Store.executeWithState_part hgiven hp _ t

/-- A store beside the map that a caller holds. -/
def besideMap : Slot (Store × StartMap) Store := ⟨Prod.fst, fun a w => (a, w.2)⟩

/-- The store that goes on from the map, and the map as the caller holds it. -/
def handedOver : Run (Store × StartMap) := Run.start (Store.ofStart staleStart, staleStart)

/-- The newest document is removed as the last thing in one session, and created again in the next. -/
def recreation : List (Program (Store × StartMap)) :=
  [.command (.remove .a), .command (.create .a "z")]

/-- Split in between, the removed document's version is not given out again, and the map that the caller
holds stays as it is. -/
theorem recreation_split :
    (∃ m t, Store.executeEach besideMap recreation staleStart handedOver =
        .ok ([.inl (.ok .null), .inl (.ok (Document.toValue ⟨"z", ⟨6⟩⟩))], m) t ∧
      m.docs = (besideMap.get t.world).docs ∧ m.highWater = 6) ∧
    ∀ p ∈ recreation, (Reply.left (Store.executeWithState besideMap p handedOver.world.2
      handedOver)).world.2 = handedOver.world.2 := by
  have hslot : besideMap.Faithful := ⟨fun _ _ => rfl, fun _ => rfl⟩
  have hwithin : ∀ own, ∀ p ∈ recreation, Program.Within own p := by
    intro own p hp
    rcases List.mem_cons.1 hp with rfl | hp
    · exact ⟨trivial, trivial⟩
    · rw [List.mem_singleton.1 hp]
      exact ⟨trivial, trivial⟩
  obtain ⟨hsame, hgiven⟩ := splitting_changes_nothing besideMap hslot staleStart (by decide) recreation
    (hwithin _) handedOver rfl
  have hall : ∃ t, Store.executeAll besideMap recreation handedOver =
        .ok [.inl (.ok .null), .inl (.ok (Document.toValue ⟨"z", ⟨6⟩⟩))] t ∧
      (besideMap.get t.world).lastVersion = 6 := by
    simp only [recreation, Store.executeAll, Program.execute_command]
    exact ⟨_, rfl, rfl⟩
  refine ⟨?_, fun p hp => hgiven Prod.snd (fun _ _ => rfl) p (hwithin _ p hp) handedOver⟩
  obtain ⟨t, hrun, hlast⟩ := hall
  rw [hrun] at hsame
  generalize Store.executeEach besideMap recreation staleStart handedOver = x at hsame
  cases hsame with
  | returned hdocs hmark => exact ⟨_, t, rfl, hdocs, hmark.trans hlast⟩

end CasStore
