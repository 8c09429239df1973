import CasStore.Proofs.Accounting
import CasStore.Proofs.Modification
import CasStore.Proofs.Noninterference

/-!
# Creating many documents

A batch over contents whose keys are known, on a store in memory, and under a policy that never stops it.
An item gets its document if it is the first that wants its key, and the store does not have that key yet.
The store keeps all it has, and the new documents come after that in the order of their items, with one
version after the other.

    who wins is settled by the items and the keys in store           (mem_winners)
    one item stores its document, or nothing                         (Fate.of_plain)
    the whole batch stores the documents of those that win           (bulk_creates)
-/

namespace CasStore.Batch

variable {σ : Type}

/-! ## Algorithm -/

/-- The key and the content of a plain item, unless it is a failure or has no key. -/
def wanted : Item (Program σ) → Option (Key × String)
  | .record (.mk (.pure raw) []) content =>
    match Key.ofValue raw with
    | .ok k => some (k, content)
    | .error _ => none
  | _ => none

/-- The key and the content that the store takes from an item. -/
def granted (s : Store) (i : Item (Program σ)) : Option (Key × String) :=
  (wanted i).filter fun x => !s.docs.contains x.1

/-- The store after an item. -/
def stored (s : Store) (i : Item (Program σ)) : Store :=
  match granted s i with
  | some (k, content) => (s.write k content).2
  | none => s

/-- The positions of the items that a store takes a document from, with its key and its content; the first
item is at `own`. -/
def winners (s : Store) (own : Nat) : List (Item (Program σ)) → List (Nat × Key × String)
  | [] => []
  | i :: items => ((granted s i).map (own, ·)).toList ++ winners (stored s i) (own + 1) items

/-- Documents with one version after the other from that after `last` on. -/
def versioned (last : Int) : List (Nat × Key × String) → List (Key × Document)
  | [] => []
  | (_, k, content) :: won => (k, ⟨content, ⟨last + 1⟩⟩) :: versioned (last + 1) won

/-- Item `n` wants the key for the content, nothing is there under that key, and no item before it wants
the same key. -/
structure Wins (start : DocMap) (items : List (Item (Program σ))) (n : Nat) (k : Key) (content : String) :
    Prop where
  wants : ∃ i, items[n]? = some i ∧ wanted i = some (k, content)
  free : start.find? k = none
  first : ∀ m i c, m < n → items[m]? = some i → wanted i ≠ some (k, c)

/-- The call makes a plain item, and leaves the store in `slot` as it is. -/
def Supplies (slot : Slot σ Store) (call : σ → Reply σ (Item (Program σ))) : Prop :=
  ∀ w, ∃ i w', call w = .ok i w' ∧ Plain i ∧ slot.get w' = slot.get w

/-- The call makes the item, in some world. -/
def Made (call : σ → Reply σ (Item (Program σ))) (i : Item (Program σ)) : Prop :=
  ∃ w w', call w = .ok i w'

/-- A plain item has succeeded just if the store takes its document, and that is all the store has taken;
nothing was pulled meanwhile. -/
structure Settled (slot : Slot σ Store) (i : Item (Program σ)) (s : Run σ) (cause : Option Fault)
    (t : Run σ) : Prop where
  won : cause.isNone = (granted (slot.get s.world) i).isSome
  store : slot.get t.world = stored (slot.get s.world) i
  cursors : t.cursors = s.cursors

/-- A plain item is what the codec makes of the value: its key and its content, or the error of whichever
of the two cannot be derived. -/
inductive Encoded (codec : Codec σ) (v : Value) : Item (Program σ) → Prop
  | record {w k w' content w''} (hkey : codec.keyFor v w = .ok k w')
      (htext : codec.serialize v w' = .ok content w'') :
      Encoded codec v (.record (Program.pure (.key k)) content)
  | keyless {w e w' f} (hkey : codec.keyFor v w = .error e w') (hf : Typed.notEncoded e = .ok f) :
      Encoded codec v (.failed f)
  | unwritten {w k w' e w'' f} (hkey : codec.keyFor v w = .ok k w')
      (htext : codec.serialize v w' = .error e w'') (hf : Typed.notEncoded e = .ok f) :
      Encoded codec v (.failed f)

/-! ## Lemmas -/

/-! ### Who wins -/

section

variable {s : Store} {i : Item (Program σ)} {items : List (Item (Program σ))} {k : Key} {content : String}

theorem granted_eq_some_iff :
    granted s i = some (k, content) ↔ wanted i = some (k, content) ∧ s.docs.find? k = none := by
  unfold granted Table.contains
  rw [Option.filter_eq_some_iff]
  simp

theorem stored_of_granted (h : granted s i = some (k, content)) : stored s i = (s.write k content).2 := by
  unfold stored
  rw [h]

theorem stored_of_not_granted (h : granted s i = none) : stored s i = s := by
  unfold stored
  rw [h]

/-- A key is free after an item if it was before, and the item does not want it. -/
theorem find?_stored_eq_none_iff :
    (stored s i).docs.find? k = none ↔ s.docs.find? k = none ∧ ∀ c, wanted i ≠ some (k, c) := by
  cases h : granted s i with
  | none =>
    rw [stored_of_not_granted h]
    refine ⟨fun hfree => ⟨hfree, fun c hc => ?_⟩, And.left⟩
    rw [granted_eq_some_iff.2 ⟨hc, hfree⟩] at h
    cases h
  | some x =>
    obtain ⟨l, content⟩ := x
    obtain ⟨hwanted, hfree⟩ := granted_eq_some_iff.1 h
    rw [stored_of_granted h, Store.find?_write]
    by_cases hk : k = l
    · subst hk
      simp [hwanted]
    · have hne : ∀ c, wanted i ≠ some (k, c) := by
        intro c hc
        rw [hwanted] at hc
        cases hc
        exact hk rfl
      rw [if_neg hk]
      exact ⟨fun h => ⟨h, hne⟩, And.left⟩

theorem wins_zero_iff : Wins s.docs (i :: items) 0 k content ↔ granted s i = some (k, content) := by
  rw [granted_eq_some_iff]
  constructor
  · rintro ⟨⟨j, hj, hwants⟩, hfree, -⟩
    cases hj
    exact ⟨hwants, hfree⟩
  · rintro ⟨hwants, hfree⟩
    exact ⟨⟨i, rfl, hwants⟩, hfree, fun m j c hm => absurd hm (Nat.not_lt_zero m)⟩

/-- Whether an item wins is settled by the store after the first item, and by the other items. -/
theorem wins_succ_iff {n : Nat} :
    Wins s.docs (i :: items) (n + 1) k content ↔ Wins (stored s i).docs items n k content := by
  constructor
  · rintro ⟨⟨j, hj, hwants⟩, hfree, hfirst⟩
    refine ⟨⟨j, hj, hwants⟩, find?_stored_eq_none_iff.2 ⟨hfree, ?_⟩, ?_⟩
    · exact fun c => hfirst 0 i c (Nat.succ_pos n) rfl
    · exact fun m j c hm hj => hfirst (m + 1) j c (Nat.succ_lt_succ hm) hj
  · rintro ⟨⟨j, hj, hwants⟩, hfree, hfirst⟩
    obtain ⟨hfree, hnot⟩ := find?_stored_eq_none_iff.1 hfree
    refine ⟨⟨j, hj, hwants⟩, hfree, fun m j c hm hj => ?_⟩
    cases m with
    | zero => cases hj; exact hnot c
    | succ m => exact hfirst m j c (Nat.lt_of_succ_lt_succ hm) hj

theorem mem_winners {own n : Nat} :
    (n, k, content) ∈ winners s own items ↔ ∃ m, n = own + m ∧ Wins s.docs items m k content := by
  induction items generalizing s own with
  | nil =>
    constructor
    · intro h
      cases h
    · rintro ⟨m, -, ⟨i, hi, -⟩, -, -⟩
      cases hi
  | cons i items ih =>
    rw [winners, List.mem_append, Option.mem_toList, Option.map_eq_some_iff, ih]
    constructor
    · rintro (⟨x, hx, heq⟩ | ⟨m, rfl, h⟩)
      · cases heq
        exact ⟨0, rfl, wins_zero_iff.2 hx⟩
      · exact ⟨m + 1, by omega, wins_succ_iff.2 h⟩
    · rintro ⟨m, rfl, h⟩
      cases m with
      | zero => exact .inl ⟨_, wins_zero_iff.1 h, rfl⟩
      | succ m => exact .inr ⟨m, by omega, wins_succ_iff.1 h⟩

/-- What is stored comes behind what was there, in the order of the items. -/
theorem entries_foldl_stored (own : Nat) (items : List (Item (Program σ))) (s : Store) :
    (items.foldl stored s).docs.entries = s.docs.entries ++ versioned s.lastVersion (winners s own items) ∧
    (items.foldl stored s).lastVersion = s.lastVersion + (winners s own items).length := by
  induction items generalizing s own with
  | nil => exact ⟨(List.append_nil _).symm, (Int.add_zero _).symm⟩
  | cons i items ih =>
    obtain ⟨hentries, hlast⟩ := ih (own + 1) (stored s i)
    rw [List.foldl_cons, hentries, hlast, winners]
    cases h : granted s i with
    | none =>
      rw [stored_of_not_granted h]
      exact ⟨rfl, rfl⟩
    | some x =>
      obtain ⟨k, content⟩ := x
      obtain ⟨-, hfree⟩ := granted_eq_some_iff.1 h
      have hput : (s.write k content).2.docs.entries = s.docs.entries ++ [(k, ⟨content, s.nextVersion⟩)] :=
        Table.entries_insert_of_find?_eq_none hfree _
      rw [stored_of_granted h, Store.lastVersion_write, hput, List.append_assoc]
      refine ⟨rfl, ?_⟩
      show _ = s.lastVersion + ((winners _ _ items).length + 1 : Nat)
      omega

end

/-! ### One item -/

section

variable {slot : Slot σ Store} {i : Item (Program σ)} {s t : Run σ} {cause : Option Fault}

theorem cursors_marking (e : Fault) (s : Run σ) : (Run.marking e s).2.cursors = s.cursors := by
  unfold Run.marking
  split <;> rfl

/-- An item that the store does not take fails. -/
theorem Settled.of_marking {u : Run σ} (h : granted (slot.get s.world) i = none)
    (hworld : u.world = s.world) (hcursors : u.cursors = s.cursors) (e : Fault) :
    Settled slot i s (some (Run.marking e u).1) (Run.marking e u).2 where
  won := by rw [h]; rfl
  store := by rw [stored_of_not_granted h, Run.world_marking, hworld]
  cursors := by rw [cursors_marking, hcursors]

theorem wanted_record (raw : Value) (content : String) :
    wanted (.record (Program.pure raw : Program σ) content) =
      match Key.ofValue raw with
      | .ok k => some (k, content)
      | .error _ => none := rfl

/-- A document is created under a key that is free. -/
theorem execute_create_of_free (hslot : slot.Lawful) {k : Key} (h : (slot.get s.world).docs.find? k = none)
    (content : String) :
    ∃ v t, (Program.command (.create k content)).execute (Store.backend slot) s = .ok (.inl (.ok v)) t ∧
      slot.get t.world = ((slot.get s.world).write k content).2 ∧ t.cursors = s.cursors := by
  have happly : (slot.get s.world).apply (.create k content) =
      .ok (.document ((slot.get s.world).write k content).1, ((slot.get s.world).write k content).2) := by
    simp only [Store.apply, Table.contains, h, Option.isSome_none, Bool.false_eq_true, if_false]
  obtain ⟨t, hdispatch, hworld, hcursors⟩ := Store.dispatch_of_ok happly
  rw [Program.execute_command, Store.whenConnected_backend]
  exact ⟨_, t, hdispatch, by rw [hworld, hslot], hcursors⟩

/-- Under a key that is taken there is none created. -/
theorem execute_create_of_taken {k : Key} (h : (slot.get s.world).docs.find? k ≠ none) (content : String) :
    ∃ e t, (Program.command (.create k content)).execute (Store.backend slot) s = .ok (.inl (.error e)) t ∧
      t.world = s.world ∧ t.cursors = s.cursors := by
  have happly : (slot.get s.world).apply (.create k content) = .error .present := by
    simp only [Store.apply, Table.contains, Option.isSome_iff_ne_none.2 h, if_true]
  rw [Program.execute_command, Store.whenConnected_backend]
  exact Store.dispatch_of_error happly

/-- What comes of a plain item. -/
theorem Fate.settled (hslot : slot.Lawful) (h : Fate (Store.backend slot) i s cause t) (hi : Plain i) :
    Settled slot i s cause t := by
  have hpure : ∀ {raw : Value} {r : LooseResult} {u : Run σ},
      (Program.pure raw).execute (Store.backend slot) s = .ok r u → .inl (.ok raw) = r ∧ s = u := by
    intro raw r u hrun
    rw [execute_pure] at hrun
    exact EStateM.Result.ok.inj hrun
  cases hi with
  | failed he =>
    cases h with
    | fails h =>
      cases h with
      | known => exact .of_marking rfl rfl rfl _
      | keyless hparts | invalid hparts | refused hparts => cases hparts
    | creates h =>
      obtain ⟨hparts, -⟩ := h
      cases hparts
  | record raw content =>
    cases h with
    | fails h =>
      cases h with
      | keyless hparts hkey =>
        cases hparts
        cases (hpure hkey).1
      | invalid hparts hkey hraw =>
        cases hparts
        obtain ⟨hsame, rfl⟩ := hpure hkey
        cases hsame
        refine .of_marking ?_ rfl rfl _
        rw [granted, wanted_record, hraw]
        rfl
      | @refused _ _ _ _ _ k _ _ _ hparts hkey hraw hcreate =>
        cases hparts
        obtain ⟨hsame, rfl⟩ := hpure hkey
        cases hsame
        have htaken : (slot.get s.world).docs.find? k ≠ none := by
          intro hfree
          obtain ⟨v, u, hrun, -⟩ := execute_create_of_free hslot hfree content
          rw [hcreate] at hrun
          cases hrun
        obtain ⟨e, u, hrun, hworld, hcursors⟩ := execute_create_of_taken htaken content
        rw [hcreate] at hrun
        cases hrun
        refine .of_marking (Option.eq_none_iff_forall_ne_some.2 fun x hx => ?_) hworld hcursors _
        obtain ⟨hwanted, hfree⟩ := granted_eq_some_iff.1 hx
        rw [wanted_record, hraw] at hwanted
        cases hwanted
        exact htaken hfree
    | creates h =>
      cases h with
      | @mk _ _ _ _ k _ _ _ hparts hkey hraw hcreate =>
        cases hparts
        obtain ⟨hsame, rfl⟩ := hpure hkey
        cases hsame
        have hfree : (slot.get s.world).docs.find? k = none := by
          refine Classical.byContradiction fun htaken => ?_
          obtain ⟨e, u, hrun, -⟩ := execute_create_of_taken htaken content
          rw [hcreate] at hrun
          cases hrun
        have hgranted : granted (slot.get s.world) (.record (Program.pure raw : Program σ) content) =
            some (k, content) := granted_eq_some_iff.2 ⟨by rw [wanted_record, hraw], hfree⟩
        obtain ⟨v, u, hrun, hstore, hcursors⟩ := execute_create_of_free hslot hfree content
        rw [hcreate] at hrun
        cases hrun
        exact ⟨by rw [hgranted]; rfl, by rw [stored_of_granted hgranted, hstore], hcursors⟩

end

/-! ### The whole batch -/

section

variable {slot : Slot σ Store} {source : Source (Program σ) σ} {own : Nat} {s t : Run σ}
  {rows : List (Row σ)}

/-- One turn: the item of the call in place was pulled, and the store takes from it what it grants. -/
theorem Row.Valid.stores {row : Row σ} (hslot : slot.Lawful)
    (hcalls : ∀ call ∈ source.items, Supplies slot call)
    (h : row.Valid (Store.backend slot) .always source own)
    (hfate : Fate (Store.backend slot) row.item row.pulled row.cause row.carried)
    (hown : place (Store.backend slot) source own row.before = own) :
    (∃ call, source.items[own]? = some call ∧ Made call row.item) ∧
      row.cause.isNone = (granted (slot.get row.before.world) row.item).isSome ∧
      slot.get row.after.world = stored (slot.get row.before.world) row.item ∧
      place (Store.backend slot) source (own + 1) row.after = own + 1 := by
  obtain ⟨call, hcall, hpull⟩ := h.pull
  obtain ⟨w, hw, hpulled⟩ := Run.onWorld_eq_ok hpull
  obtain ⟨i, w', hw', hplain, hspared⟩ := hcalls call (List.mem_of_getElem? hcall)
    (moveTo (bound (Store.backend slot) source)
      (place (Store.backend slot) source own row.before + 1) row.before).world
  rw [hw] at hw'
  cases hw'
  rw [hown] at hcall hpulled
  have hstore : slot.get row.pulled.world = slot.get row.before.world := by
    rw [hpulled]
    exact hspared.trans (by rw [world_moveTo])
  have hsettled := hfate.settled hslot hplain
  refine ⟨⟨call, hcall, _, _, hw⟩, ?_, ?_, ?_⟩
  · rw [hsettled.won, hstore]
  · rw [h.asks.always.2, hsettled.store, hstore]
  · exact place_moveTo (s := row.before) _ _ (by rw [h.asks.cursors, hsettled.cursors, hpulled])

/-- A batch that is not stopped carries out all items from `own` on. -/
theorem Course.stores (hslot : slot.Lawful) (hcalls : ∀ call ∈ source.items, Supplies slot call)
    (h : Course (Store.backend slot) .always source own s rows t)
    (hfates : ∀ row ∈ rows, Fate (Store.backend slot) row.item row.pulled row.cause row.carried)
    (hown : place (Store.backend slot) source own s = own) :
    List.Forall₂ Made (source.items.drop own) (rows.map (·.item)) ∧
      slot.get t.world = (rows.map (·.item)).foldl stored (slot.get s.world) ∧
      successes own rows = (winners (slot.get s.world) own (rows.map (·.item))).map fun x => (x.1 : Int) := by
  induction h with
  | @exhausted own s hend =>
    rw [hown] at hend
    rw [List.drop_eq_nil_of_le hend]
    exact ⟨.nil, rfl, rfl⟩
  | @stopped own row hvalid hstop =>
    rw [hvalid.asks.always.1] at hstop
    cases hstop
  | @going own row rows t hvalid hgo hs ih =>
    obtain ⟨hfate, hfates⟩ := List.forall_mem_cons.1 hfates
    obtain ⟨⟨call, hcall, hmade⟩, hwon, hstore, hnext⟩ := hvalid.stores hslot hcalls hfate hown
    obtain ⟨hmades, hstores, hsuccesses⟩ := ih hfates hnext
    obtain ⟨hlt, hcall⟩ := List.getElem?_eq_some_iff.1 hcall
    refine ⟨?_, ?_, ?_⟩
    · rw [List.drop_eq_getElem_cons hlt, hcall]
      exact .cons hmade hmades
    · rw [hstores, hstore]
      rfl
    · have hcons : successes own (row :: rows) =
          (if row.cause.isNone then [(own : Int)] else []) ++ successes (own + 1) rows := by
        simp only [successes, List.zipIdx_cons, List.filterMap_cons]
        cases row.cause <;> rfl
      rw [hcons, hsuccesses, hwon, hstore, List.map_cons, winners, List.map_append]
      cases granted (slot.get row.before.world) row.item <;> rfl

end

/-! ### Items of values -/

section

variable {slot : Slot σ Store} {codec : Codec σ}

/-- What a codec makes of a value is plain, and leaves the store as it is. -/
theorem exists_item (hcodec : codec.Tame) (hspares : codec.Spares slot) (v : Value) (w : σ) :
    ∃ i w', Typed.item codec v w = .ok i w' ∧ Encoded codec v i ∧ Plain i ∧ slot.get w' = slot.get w := by
  have hnamed := hcodec.keyFor v w
  have hspared := hspares.keyFor v w
  unfold Typed.item
  cases hkey : codec.keyFor v w with
  | error e w' =>
    rw [hkey] at hnamed hspared
    obtain ⟨hordinary, hsaid⟩ : Ordinary e := hnamed
    have hfailed := Typed.notEncoded_of_hasMessage hsaid
    simp only [hordinary, if_true, hfailed]
    exact ⟨_, w', rfl, .keyless hkey hfailed, .failed (Fault.hasMessage_decode ..), hspared⟩
  | ok k w' =>
    rw [hkey] at hspared
    have hwritten := hcodec.serialize v w'
    have hkept := hspares.serialize v w'
    dsimp only
    cases htext : codec.serialize v w' with
    | error e w'' =>
      rw [htext] at hwritten hkept
      obtain ⟨hordinary, hsaid⟩ : Ordinary e := hwritten
      have hfailed := Typed.notEncoded_of_hasMessage hsaid
      simp only [hordinary, if_true, hfailed]
      exact ⟨_, w'', rfl, .unwritten hkey htext hfailed, .failed (Fault.hasMessage_decode ..),
        hkept.trans hspared⟩
    | ok content w'' =>
      rw [htext] at hkept
      exact ⟨_, w'', rfl, .record hkey htext, .record _ _, hkept.trans hspared⟩

theorem items_of_values (codec : Codec σ) (values : List Value) :
    Typed.items codec (values.map fun v w => .ok v w) = values.map (Typed.item codec) :=
  List.map_map

end

/-! ## Top theorems -/

/-- What a batch that is not stopped has done with the store `start`. -/
structure BulkCreated (start : Store) (items : List (Item (Program σ))) (o : Outcome Fault)
    (final : Store) : Prop where
  /-- The items that win are the first ones to want a valid key that is free. -/
  won : ∀ n k content, (n, k, content) ∈ winners start 0 items ↔ Wins start.docs items n k content
  /-- Just these succeed, -/
  succeeded : o.succeeded.toList = (winners start 0 items).map fun x => (x.1 : Int)
  /-- and every other one is recorded as a failure, in order. -/
  failed : ∀ i : Int, i ∈ o.failedIndices ↔ (0 ≤ i ∧ i < items.length) ∧ i ∉ o.succeeded
  rising : o.failedIndices.Pairwise (· < ·)
  /-- The store has what it had, and the documents of the items that win, in their order and with one
  version after the other. -/
  documents : final.docs.entries = start.docs.entries ++ versioned start.lastVersion (winners start 0 items)
  lastVersion : final.lastVersion = start.lastVersion + (winners start 0 items).length

/-- A batch of plain items, from a source that nothing has been pulled from. -/
theorem bulk_of_supplies {slot : Slot σ Store} (hslot : slot.Lawful) (source : Source (Program σ) σ)
    (hcalls : ∀ call ∈ source.items, Supplies slot call) (s : Run σ)
    (hfresh : ∀ c, source.cursor = some c → s.pulled c = 0) :
    ∃ items o t, Program.executeBatch (Store.backend slot) .always source s = .ok o t ∧
      List.Forall₂ Made source.items items ∧ BulkCreated (slot.get s.world) items o (slot.get t.world) := by
  have hregular : ∀ call ∈ source.items, ∀ w, Regular (call w) := by
    intro call hcall w
    obtain ⟨i, w', hw, hplain, -⟩ := hcalls call hcall w
    rw [hw]
    cases hplain with
    | failed => trivial
    | record => exact ⟨trivial, trivial⟩
  have hrecord : AllRecordable (Store.backend slot) source.items := by
    intro call hcall w i w' hw
    obtain ⟨j, w'', hw', hplain, -⟩ := hcalls call hcall w
    rw [hw] at hw'
    cases hw'
    exact hplain.recordable slot
  have hgoes : ∀ e w, ∃ goOn w', (Policy.always : Policy σ) e w = .ok goOn w' := fun _ w => ⟨true, w, rfl⟩
  obtain ⟨rows, t, u, hrun, hworld, -, -, hcourse, hfates⟩ :=
    exists_tally (Store.sound_backend slot) hgoes hregular hrecord s
  have hplace : place (Store.backend slot) source 0 (begun (Store.backend slot) s) = 0 := by
    unfold place position
    cases hc : (bound (Store.backend slot) source).cursor with
    | none => rfl
    | some c => exact hfresh c hc
  obtain ⟨hmades, hstores, hsuccesses⟩ := hcourse.stores hslot hcalls hfates hplace
  rw [show (begun (Store.backend slot) s).world = s.world from rfl] at hstores hsuccesses
  rw [List.drop_zero] at hmades
  have haccounts := hcourse.accounts hfates
  obtain ⟨hentries, hlast⟩ := entries_foldl_stored 0 (rows.map (·.item)) (slot.get s.world)
  rw [← hstores, ← hworld] at hentries hlast
  refine ⟨rows.map (·.item), _, u, hrun, hmades, ?_, ?_, ?_, haccounts.rising, hentries, hlast⟩
  · intro n k content
    rw [mem_winners]
    constructor
    · rintro ⟨m, rfl, h⟩
      rwa [Nat.zero_add]
    · exact fun h => ⟨n, (Nat.zero_add n).symm, h⟩
  · exact (toList_succeeded_tally (List.forall_mem_nil _)).trans hsuccesses
  · intro i
    have hcovered := haccounts.covered i
    have hdisjoint := haccounts.disjoint i
    rw [List.length_map, ← hcovered]
    exact ⟨fun h => ⟨.inr h, fun hs => hdisjoint ⟨hs, h⟩⟩, fun h => h.1.resolve_left h.2⟩

/-- A batch over contents with known keys, which is never stopped, gives each document to the first item
that wants it.  So it is for a list of items, and for the items that a codec makes of a list of values:
there a value whose key or content cannot be derived is a failure. -/
theorem bulk_creates (slot : Slot σ Store) (hslot : slot.Lawful) (cursor : Option Nat) (s : Run σ)
    (hfresh : ∀ c, cursor = some c → s.pulled c = 0) :
    (∀ items : List (Item (Program σ)), (∀ i ∈ items, Plain i) →
      ∃ o t, Program.executeBatch (Store.backend slot) .always (.given cursor items) s = .ok o t ∧
        BulkCreated (slot.get s.world) items o (slot.get t.world)) ∧
    ∀ (codec : Codec σ) (values : List Value), codec.Spares slot → codec.Tame →
      ∃ items o t, Program.executeBatch (Store.backend slot) .always
          ⟨cursor, Typed.items codec (values.map fun v w => .ok v w)⟩ s = .ok o t ∧
        List.Forall₂ (Encoded codec) values items ∧
        BulkCreated (slot.get s.world) items o (slot.get t.world) := by
  constructor
  · intro items hplain
    have hcalls : ∀ call ∈ (Source.given cursor items).items, Supplies slot call := by
      intro call hcall w
      obtain ⟨i, hi, rfl⟩ := List.mem_map.1 hcall
      exact ⟨i, w, rfl, hplain i hi, rfl⟩
    obtain ⟨made, o, t, hrun, hmade, hcreated⟩ := bulk_of_supplies hslot (.given cursor items) hcalls s hfresh
    have hsame : items = made := by
      refine List.forall₂_eq_eq_eq ▸ (List.forall₂_map_left_iff.1 hmade).imp fun i j hij => ?_
      obtain ⟨w, w', h⟩ := hij
      exact (EStateM.Result.ok.inj h).1
    subst hsame
    exact ⟨o, t, hrun, hcreated⟩
  · intro codec values hspares htame
    rw [items_of_values]
    have hcalls : ∀ call ∈ values.map (Typed.item codec), Supplies slot call := by
      intro call hcall w
      obtain ⟨v, -, rfl⟩ := List.mem_map.1 hcall
      obtain ⟨i, w', hi, -, hplain, hstore⟩ := exists_item htame hspares v w
      exact ⟨i, w', hi, hplain, hstore⟩
    obtain ⟨made, o, t, hrun, hmade, hcreated⟩ :=
      bulk_of_supplies hslot ⟨cursor, values.map (Typed.item codec)⟩ hcalls s hfresh
    refine ⟨made, o, t, hrun, (List.forall₂_map_left_iff.1 hmade).imp fun v i hvi => ?_, hcreated⟩
    obtain ⟨w, w', h⟩ := hvi
    obtain ⟨j, w'', hj, hencoded, -⟩ := exists_item htame hspares v w
    rw [hj] at h
    rwa [← (EStateM.Result.ok.inj h).1]

/-- A store with one document and the versions up to 4 given out. -/
def oneText : Store := ⟨.ofList [(.a, ⟨"0", ⟨1⟩⟩)], 4⟩

/-- Two items for one key that is free, one for the key that is taken, one without a key, one for another
free key, and a failure. -/
def sixItems : List (Item (Program Store)) :=
  [.record (Program.pure (.text "b")) "x", .failed (.notFound "m" none),
    .record (Program.pure (.text "b")) "y", .record (Program.pure (.text "a")) "z",
    .record (Program.pure (.text "")) "v", .record (Program.pure (.key ⟨"c", by decide⟩)) "u"]

/-- The first of the two items for `b` wins, and the one for `c`.  Four values, the second of which has no
content, make four items. -/
theorem first_items_win :
    (Slot.whole : Slot Store Store).Lawful ∧ (∀ i ∈ sixItems, Plain i) ∧
    (∃ o t, Program.executeBatch (Store.backend Slot.whole) .always (.given (some 0) sixItems)
        (Run.start oneText) = .ok o t ∧ o.succeeded.toList = [0, 5] ∧
      t.world.docs.entries = [(.a, ⟨"0", ⟨1⟩⟩), (⟨"b", by decide⟩, ⟨"x", ⟨5⟩⟩),
        (⟨"c", by decide⟩, ⟨"u", ⟨6⟩⟩)]) ∧
    ∃ (items : List (Item (Program Store))) (o : Outcome Fault) (t : Run Store),
      Program.executeBatch (Store.backend Slot.whole) .always
        ⟨none, Typed.items Typed.plainTexts
          ([.text "x", .int 3, .text "y", .text "z"].map fun v w => .ok v w)⟩ (Run.start oneText) = .ok o t ∧
      items.length = 4 ∧ BulkCreated oneText items o t.world := by
  have hlawful : (Slot.whole : Slot Store Store).Lawful := Slot.lawful_whole
  have hplain : ∀ i ∈ sixItems, Plain i := by
    simp only [sixItems, List.forall_mem_cons]
    have hmissing : (Fault.notFound "m" none).hasMessage = true :=
      (Fault.hasMessage_within ..).trans (Fault.hasMessage_of_text rfl)
    exact ⟨.record .., .failed hmissing, .record .., .record .., .record .., .record ..,
      List.forall_mem_nil _⟩
  have hwinners : winners oneText 0 sixItems = [(0, ⟨"b", by decide⟩, "x"), (5, ⟨"c", by decide⟩, "u")] := by
    decide +kernel
  obtain ⟨o, t, hrun, hcreated⟩ := (bulk_creates Slot.whole hlawful (some 0) (Run.start oneText)
    fun _ _ => rfl).1 sixItems hplain
  have hsucceeded := hcreated.succeeded
  have hdocuments := hcreated.documents
  rw [show Slot.whole.get (Run.start oneText).world = oneText from rfl, hwinners] at hsucceeded hdocuments
  obtain ⟨items, o', t', hrun', hencoded, hcreated'⟩ := (bulk_creates Slot.whole hlawful none
    (Run.start oneText) fun _ h => by cases h).2 Typed.plainTexts [.text "x", .int 3, .text "y", .text "z"]
    Typed.spares_plainTexts Typed.tame_plainTexts
  exact ⟨hlawful, hplain, ⟨o, t, hrun, hsucceeded, hdocuments⟩, items, o', t', hrun',
    hencoded.length_eq.symm, hcreated'⟩

end CasStore.Batch
