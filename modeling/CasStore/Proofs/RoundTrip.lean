import CasStore.Proofs.JsonText
import CasStore.Proofs.Modification

/-!
# Typed documents come back

A typed value is stored as the content that its codec writes, and given back as the value that the codec
reads from the content.  Between the two anything may be done to other keys.  With the codec of users
the value and its version come back as they were, unless the id has more digits than are read.

    a document stays while something is done elsewhere               (Elsewhere.find?)
    a document is answered as what the codec reads                   (execute_get)
    what a codec reads as it was written comes back                  (comes_back)
    a user comes back, with the version that was given               (user_comes_back)
-/

namespace CasStore

variable {σ : Type}

/-! ## Algorithm -/

/-- What is done between two runs without touching the document under `k`: commands on other keys,
programs that dispatch commands on other keys only, and what leaves the store as it is, in any order. -/
inductive Elsewhere (slot : Slot σ Store) (k : Key) : Run σ → Run σ → Prop
  | aside {s t} (h : slot.get t.world = slot.get s.world) : Elsewhere slot k s t
  | command {c} (hc : c.key ≠ k) (s) : Elsewhere slot k s ((Store.backend slot).turn c s).after
  | program {p : Program σ} (hp : Program.Within (fun w w' => slot.get w' = slot.get w) p) {s}
      {cs : List Command} (hcs : ∀ c ∈ cs, c.key ≠ k)
      (hnoted : (Reply.left (p.execute (Store.backend slot) s)).journal.commands =
        s.journal.commands ++ cs.map noted) :
      Elsewhere slot k s (Reply.left (p.execute (Store.backend slot) s))
  | trans {s t u} (h : Elsewhere slot k s t) (h' : Elsewhere slot k t u) : Elsewhere slot k s u

namespace Typed

/-- What was read from a content, with the version of its document. -/
def versioned (version : Version) : Result → Result
  | .ok v => .ok (.typed v version)
  | .error e => .error e

/-- The program that stores a content for a value. -/
abbrev creating (value : Value) (k : Key) (content : String) : Program σ :=
  (Program.command (.create k content)).map (written value)

end Typed

/-! ## Lemmas -/

section

variable {slot : Slot σ Store} {k : Key}

/-- A command's key can be told from how it is noted. -/
theorem key_of_noted {c d : Command} (h : noted c = noted d) : c.key = d.key := by
  have hlookup : ∀ c : Command, (noted c).lookup "key" = some (.text c.key.value) := fun _ => rfl
  have hkey := congrArg (List.lookup "key") h
  rw [hlookup, hlookup] at hkey
  exact Key.ext (Value.text.inj (Option.some.inj hkey))

theorem Store.find?_afterCommands_of_ne {cs : List Command} (hcs : ∀ c ∈ cs, c.key ≠ k) (s : Store) :
    (s.afterCommands cs).docs.find? k = s.docs.find? k := by
  induction cs generalizing s with
  | nil => rfl
  | cons c cs ih =>
    have hc : k ≠ c.key := (hcs c (List.mem_cons_self ..)).symm
    exact (ih (fun d hd => hcs d (List.mem_cons_of_mem _ hd)) _).trans ((s.answered_move c).doc?_of_ne hc)

/-- A document stays as it is while something is done elsewhere. -/
theorem Elsewhere.find? (hslot : slot.Lawful) {s t : Run σ} (h : Elsewhere slot k s t) :
    (slot.get t.world).docs.find? k = (slot.get s.world).docs.find? k := by
  induction h with
  | aside h => rw [h]
  | @command c hc s =>
    rw [Store.get_turn hslot]
    exact ((slot.get s.world).answered_move c).doc?_of_ne hc.symm
  | @program p hp s cs hcs hnoted =>
    obtain ⟨ds, hstore, hnoted'⟩ := ByCommands.execute hslot hp s
    -- the commands that were noted are the commands that made the store what it is
    have hsame : cs.map noted = ds.map noted := List.append_cancel_left (hnoted.symm.trans hnoted')
    have hds : ∀ d ∈ ds, d.key ≠ k := by
      intro d hd
      obtain ⟨c, hc, hcd⟩ := List.mem_map.1 (hsame ▸ List.mem_map_of_mem hd)
      rw [← key_of_noted hcd]
      exact hcs c hc
    rw [hstore, Store.find?_afterCommands_of_ne hds]
  | trans _ _ ih ih' => exact ih'.trans ih

namespace Typed

variable {codec : Codec σ} {value : Value} {content : String} {s : Run σ}

/-- A document that is there is answered as what the codec reads, with its version. -/
theorem execute_get (hslot : slot.Faithful) {d : Document} {r : Result} {w : σ}
    (hd : (slot.get s.world).docs.find? k = some d)
    (hread : codec.deserialize (.text d.content) s.world = .ok r w) :
    ∃ t, (get codec k).execute (Store.backend slot) s = .ok (.inl (versioned d.version r)) t := by
  have hget : (slot.get s.world).apply (.get k) = .ok (.document d, slot.get s.world) := by
    simp only [Store.apply, hd]
  obtain ⟨t, hdispatch, hworld, -⟩ := Store.dispatch_of_ok hget
  rw [hslot.restore] at hworld
  have hnext : asNext (decode codec d.toValue) t.world =
      .ok (.program (Program.ofResult (versioned d.version r))) w := by
    rw [hworld]
    cases r with
    | ok v => simp only [asNext, decode, Document.toValue, hread, versioned, Program.ofResult]
    | error e => simp only [asNext, decode, Document.toValue, hread, versioned, Program.ofResult]
  rw [Program.execute_eq_whenConnected, Store.whenConnected_backend]
  show ∃ u, ((Store.backend slot).dispatch (.get k) >>= evaluateStages _ _) s = .ok _ u
  rw [bind_of_ok hdispatch]
  show ∃ u, (evaluateReply (Root.call (Store.backend slot)) .andThen
      (asNext (decode codec d.toValue) t.world) >>=
    evaluateStages (Root.call (Store.backend slot)) []) t = .ok _ u
  rw [hnext]
  cases r with
  | ok v => exact ⟨_, rfl⟩
  | error e => exact ⟨_, rfl⟩

/-- Where a key is free a content is stored, and its value answered with the version that it got. -/
theorem execute_creating (hslot : slot.Lawful) (hfree : (slot.get s.world).docs.find? k = none)
    (value : Value) (content : String) :
    ∃ version t, (creating value k content).execute (Store.backend slot) s =
        .ok (.inl (.ok (.typed value version))) t ∧
      (slot.get t.world).docs.find? k = some ⟨content, version⟩ := by
  have happly : (slot.get s.world).apply (.create k content) =
      .ok (.document ((slot.get s.world).write k content).1, ((slot.get s.world).write k content).2) := by
    have hnot : (slot.get s.world).docs.contains k = false := by
      rw [Table.contains, hfree]
      rfl
    simp only [Store.apply, hnot, Bool.false_eq_true, if_false]
  obtain ⟨t, hdispatch, hworld, -⟩ := Store.dispatch_of_ok happly
  refine ⟨(slot.get s.world).nextVersion, t, ?_, ?_⟩
  · rw [Program.execute_eq_whenConnected, Store.whenConnected_backend]
    show ((Store.backend slot).dispatch _ >>= evaluateStages _ [.map (written value)]) s = _
    rw [bind_of_ok hdispatch]
    rfl
  · rw [hworld, hslot, Store.find?_write, if_pos rfl]

/-- A value whose content is read as the value comes back, whatever is done elsewhere meanwhile. -/
theorem comes_back (hslot : slot.Faithful) {w w' : σ} (hkey : codec.keyFor value s.world = .ok k w)
    (hcontent : codec.serialize value w = .ok content w')
    (hread : ∀ w, codec.deserialize (.text content) w = .ok (.ok value) w)
    (hfree : (slot.get w').docs.find? k = none) :
    ∃ p version t, create codec value s.world = .ok p w' ∧
      p.execute (Store.backend slot) { s with world := w' } = .ok (.inl (.ok (.typed value version))) t ∧
      ∀ t', Elsewhere slot k t t' →
        ∃ u, (get codec k).execute (Store.backend slot) t' = .ok (.inl (.ok (.typed value version))) u := by
  obtain ⟨version, t, hrun, hstored⟩ :=
    execute_creating (s := { s with world := w' }) hslot.lawful hfree value content
  refine ⟨creating value k content, version, t, ?_, hrun, fun t' helsewhere => ?_⟩
  · simp only [create, hkey, hcontent]
  · have hd := (helsewhere.find? hslot.lawful).trans hstored
    exact execute_get hslot hd (hread t'.world)

end Typed

end

/-! ## Top theorems -/

/-- A user comes back.  He is read back from his content, whatever characters the name holds and whatever
the id is, as long as it does not have too many digits.  Once he is stored under a key that was free, he
is answered under the key with the version that he was given, whatever is done to other keys meanwhile. -/
theorem user_comes_back {slot : Slot σ Store} (hslot : slot.Faithful) (key : Value → σ → Reply σ Value)
    (u : User) (hid : (Numeral.natDigits u.id.natAbs).length ≤ Numeral.maxDigits) (s : Run σ) {raw : Value}
    {k : Key} {w : σ} (hkey : key (.user u) s.world = .ok raw w) (hvalid : Key.ofValue raw = .ok k)
    (hfree : (slot.get w).docs.find? k = none) :
    User.deserialize (.text u.serialize) = .ok (.user u) ∧
      ∃ p version t, Typed.create (userCodec key) (.user u) s.world = .ok p w ∧
        p.execute (Store.backend slot) { s with world := w } =
          .ok (.inl (.ok (.typed (.user u) version))) t ∧
        ∀ t', Elsewhere slot k t t' →
          ∃ v, (Typed.get (userCodec key) k).execute (Store.backend slot) t' =
            .ok (.inl (.ok (.typed (.user u) version))) v := by
  have hback : User.deserialize (.text u.serialize) = .ok (.user u) := by
    rw [User.deserialize_serialize, if_pos hid]
  have hnamed : (userCodec key).keyFor (.user u) s.world = .ok k w := by
    simp only [userCodec, hkey, hvalid]
  have hread : ∀ w, (userCodec key).deserialize (.text u.serialize) w = .ok (.ok (.user u)) w := by
    intro w
    rw [← hback]
    rfl
  exact ⟨hback, Typed.comes_back hslot hnamed rfl hread hfree⟩

/-- Every value is stored under one key. -/
def underOneKey : Value → Store → Reply Store Value := fun _ w => .ok (.text "a") w

/-- A user with a negative id of the most digits, and a name of quotes, controls and letters of several
scripts. -/
def oddUser : User := ⟨-((10 ^ 4299 : Nat) : Int), "\"\\/\x00\x1f\n\x7f é Ω 😀"⟩

/-- The user comes back from an empty store, after another document has been created and removed. -/
theorem odd_user_comes_back :
    (Numeral.natDigits oddUser.id.natAbs).length = Numeral.maxDigits ∧
    ∃ p version t u, Typed.create (userCodec underOneKey) (.user oddUser) Store.fresh = .ok p Store.fresh ∧
      p.execute (Store.backend Slot.whole) (Run.start Store.fresh) =
        .ok (.inl (.ok (.typed (.user oddUser) version))) t ∧
      (Typed.get (userCodec underOneKey) .a).execute (Store.backend Slot.whole)
          (afterTurns (Store.commands Slot.whole [.create Typed.otherKey "x", .remove Typed.otherKey]) t) =
        .ok (.inl (.ok (.typed (.user oddUser) version))) u := by
  have hid : (Numeral.natDigits oddUser.id.natAbs).length = Numeral.maxDigits := by
    rw [oddUser, Int.natAbs_neg, Int.natAbs_natCast]
    exact Numeral.natDigits_length_pow 4299
  have hother : Typed.otherKey ≠ .a := by decide
  have hslot : (Slot.whole : Slot Store Store).Faithful := ⟨fun _ _ => rfl, fun _ => rfl⟩
  have hvalid : Key.ofValue (.text "a") = .ok .a := rfl
  obtain ⟨-, p, version, t, hcreate, hrun, hget⟩ :=
    user_comes_back hslot underOneKey oddUser (Nat.le_of_eq hid) (Run.start Store.fresh) rfl hvalid rfl
  obtain ⟨u, hback⟩ := hget _ (.trans (.command (c := .create Typed.otherKey "x") hother t)
    (.command (c := .remove Typed.otherKey) hother _))
  exact ⟨hid, p, version, t, u, hcreate, hrun, hback⟩

end CasStore
