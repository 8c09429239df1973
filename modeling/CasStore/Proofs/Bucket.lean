import CasStore.Network.Session
import CasStore.Proofs.Memory

/-!
# Scripts on a bucket

A bucket of a key space shows documents by key and the highest version given out.  `Script.effect` says
what each script makes of that, without names: its reply, and what the bucket shows afterwards.

    a bucket that shows v shows (effect v c).2 after the script of c  (run_request)
    a script that does not change what is shown changes nothing       (run_request)
-/

namespace CasStore

/-! ## Algorithm -/

/-- What stands under a name of a bucket that shows `v`: the sequence of versions, once one has been
given out, and documents under keys. -/
def View.entry? (v : View) (name : String) : Option Entry :=
  if name = Session.versionSequence then if v.last = 0 then none else some (.sequence v.last)
  else (Key.ofString? name).bind fun k => (v.doc? k).map .document

/-- A bucket of a key space shows `v`, and holds nothing else. -/
structure Keyspace.Shows (ks : Keyspace) (bucket : String) (v : View) : Prop where
  entries : ∀ name, ks.find? (bucket ++ ":" ++ name) = v.entry? name
  reserved : ∀ k : Key, k.value = Session.versionSequence → v.doc? k = none
  nonneg : 0 ≤ v.last

/-- What a bucket of a key space shows. -/
def Keyspace.view (bucket : String) (ks : Keyspace) : View where
  doc? k :=
    match ks.find? (bucket ++ ":" ++ k.value) with
    | some (.document d) => some d
    | _ => none
  last :=
    match ks.find? (bucket ++ ":" ++ Session.versionSequence) with
    | some (.sequence n) => n
    | _ => 0

/-- A command on another key than the name of the sequence of versions. -/
def Command.IsFree (c : Command) : Prop := c.key.value ≠ Session.versionSequence

instance (c : Command) : Decidable c.IsFree := inferInstanceAs (Decidable (_ ≠ _))

namespace Script

/-- A document of this content, with the next version as scripts have it. -/
def stamped (v : View) (content : String) : Document := ⟨content, ⟨Rounded.word (v.last + 1)⟩⟩

/-- The reply to a write of this content, and what is shown afterwards. -/
def writing (v : View) (k : Key) (content : String) : Value × View :=
  (written (stamped v content).version.number, v.put k (stamped v content))

/-- The reply to a write of a number, and what is shown afterwards. -/
def writingNumber (v : View) (k : Key) (x : Rounded) : Value × View :=
  (.list [.int 1, .text (Numeral.text x.toWord)], v.put k (stamped v (Numeral.text x.toWord)))

/-- The version demanded is another one than that of the document, as scripts compare them. -/
def conflicts (d : Document) (demanded : Version) : Prop :=
  Rounded.ofInt demanded.number ≠ .finite 0 ∧
    Rounded.ofInt d.version.number ≠ Rounded.ofInt demanded.number

instance (d : Document) (demanded : Version) : Decidable (conflicts d demanded) :=
  inferInstanceAs (Decidable (_ ∧ _))

/-- What the script of a command replies where a bucket shows `v`, and what the bucket shows then. -/
def effect (v : View) : Command → Value × View
  | .get k =>
    match v.doc? k with
    | none => (.null, v)
    | some d => (.list [.text d.content, .int (Rounded.word d.version.number)], v)
  | .create k content =>
    match v.doc? k with
    | none => writing v k content
    | some _ => (.list [.int 0], v)
  | .update k content demanded =>
    match v.doc? k with
    | none => (.null, v)
    | some d =>
      if conflicts d demanded then (.list [.int 2, .int (Rounded.word d.version.number)], v)
      else writing v k content
  | .remove k =>
    match v.doc? k with
    | none => (.null, v)
    | some _ => (.int 1, v.drop k)
  | .getCounter k =>
    match v.doc? k with
    | none => (.null, v)
    | some d => (.text d.content, v)
  | .increment k delta =>
    match v.doc? k with
    | none => writingNumber v k (Rounded.ofInt delta)
    | some d =>
      if counterPattern.accepts (octets d.content) then
        writingNumber v k ((Rounded.ofInt (wholeNumber (octets d.content))).add (Rounded.ofInt delta))
      else (.list [.int 0, .text d.content], v)

end Script

/-! ## Lemmas -/

/-! ### What a bucket shows -/

theorem View.put_ne (v : View) (k : Key) (d : Document) : v.put k d ≠ v := by
  intro h
  have : v.last + 1 = v.last := congrArg View.last h
  omega

theorem View.drop_ne {v : View} {k : Key} {d : Document} (hd : v.doc? k = some d) : v.drop k ≠ v := by
  intro h
  have hk : (v.drop k).doc? k = none := if_pos rfl
  rw [h, hd] at hk
  cases hk

theorem Key.value_of_ofString? {name : String} {k : Key} (h : Key.ofString? name = some k) :
    k.value = name := by
  unfold ofString? at h
  split at h
  · cases h
  · cases h; rfl

/-- A bucket without entries shows nothing. -/
theorem Keyspace.shows_empty {ks : Keyspace} {bucket : String}
    (h : ∀ name, ks.find? (bucket ++ ":" ++ name) = none) : ks.Shows bucket ⟨fun _ => none, 0⟩ := by
  refine ⟨fun name => ?_, fun _ _ => rfl, Int.le_refl _⟩
  rw [h, View.entry?]
  split
  · rfl
  · cases Key.ofString? name <;> rfl

theorem qualified_ne {bucket a b : String} (h : a ≠ b) : bucket ++ ":" ++ a ≠ bucket ++ ":" ++ b :=
  fun heq => h (Session.qualified_injective (s := ⟨0, bucket⟩) heq)

namespace Keyspace.Shows

variable {ks : Keyspace} {bucket : String} {v : View}

theorem find?_key (h : ks.Shows bucket v) {k : Key} (hk : k.value ≠ Session.versionSequence) :
    ks.find? (bucket ++ ":" ++ k.value) = (v.doc? k).map .document := by
  rw [h.entries, View.entry?, if_neg hk, Key.ofString?_value]
  rfl

theorem find?_sequence (h : ks.Shows bucket v) :
    ks.find? (bucket ++ ":" ++ Session.versionSequence) =
      if v.last = 0 then none else some (.sequence v.last) := by
  rw [h.entries, View.entry?, if_pos rfl]

theorem view_eq (h : ks.Shows bucket v) : ks.view bucket = v := by
  obtain ⟨doc?, last⟩ := v
  unfold Keyspace.view
  congr 1
  · funext k
    by_cases hk : k.value = Session.versionSequence
    · have hnone : doc? k = none := h.reserved k hk
      rw [hk, h.find?_sequence, hnone]
      by_cases hlast : last = 0
      · rw [if_pos hlast]
      · rw [if_neg hlast]
    · rw [h.find?_key hk]
      show (match (doc? k).map Entry.document with
        | some (.document d) => some d
        | _ => none) = doc? k
      cases doc? k <;> rfl
  · rw [h.find?_sequence]
    by_cases hlast : last = 0
    · rw [if_pos hlast]
      exact hlast.symm
    · rw [if_neg hlast]

/-- After a write the bucket shows the document and the higher version. -/
theorem put (h : ks.Shows bucket v) {k : Key} (hk : k.value ≠ Session.versionSequence) (d : Document) :
    Shows ((ks.insert (bucket ++ ":" ++ Session.versionSequence) (.sequence (v.last + 1))).insert
      (bucket ++ ":" ++ k.value) (.document d)) bucket (v.put k d) := by
  have hnonneg := h.nonneg
  refine ⟨fun name => ?_, fun l hl => ?_, ?_⟩
  · rw [Table.find?_insert, Table.find?_insert]
    by_cases hname : name = k.value
    · subst hname
      rw [if_pos rfl, View.entry?, if_neg hk, Key.ofString?_value, Option.bind_some,
        View.doc?_put_self]
      rfl
    · rw [if_neg (qualified_ne hname), View.entry?]
      by_cases hseq : name = Session.versionSequence
      · have hlast : ¬ (v.put k d).last = 0 := by
          show ¬ v.last + 1 = 0
          omega
        rw [hseq, if_pos rfl, if_pos rfl, if_neg hlast]
        rfl
      · rw [if_neg (qualified_ne hseq), if_neg hseq, h.entries, View.entry?, if_neg hseq]
        cases hl : Key.ofString? name with
        | none => rfl
        | some l =>
          have hne : l ≠ k := fun heq => hname (by rw [← Key.value_of_ofString? hl, heq])
          rw [Option.bind_some, Option.bind_some, View.doc?_put, if_neg hne]
  · have hne : l ≠ k := fun heq => hk (heq ▸ hl)
    rw [View.doc?_put, if_neg hne]
    exact h.reserved l hl
  · show 0 ≤ v.last + 1
    omega

theorem drop (h : ks.Shows bucket v) {k : Key} (hk : k.value ≠ Session.versionSequence) :
    Shows (ks.erase (bucket ++ ":" ++ k.value)) bucket (v.drop k) := by
  refine ⟨fun name => ?_, fun l hl => ?_, h.nonneg⟩
  · rw [Table.find?_erase]
    by_cases hname : name = k.value
    · subst hname
      rw [if_pos rfl, View.entry?, if_neg hk, Key.ofString?_value, Option.bind_some, View.doc?_drop,
        if_pos rfl]
      rfl
    · rw [if_neg (qualified_ne hname), h.entries, View.entry?, View.entry?]
      by_cases hseq : name = Session.versionSequence
      · rw [if_pos hseq, if_pos hseq]
        rfl
      · rw [if_neg hseq, if_neg hseq]
        cases hl : Key.ofString? name with
        | none => rfl
        | some l =>
          have hne : l ≠ k := fun heq => hname (by rw [← Key.value_of_ofString? hl, heq])
          rw [Option.bind_some, Option.bind_some, View.doc?_drop, if_neg hne]
  · rw [View.doc?_drop, h.reserved l hl, ite_self]

end Keyspace.Shows

/-! ### Scripts -/

section

variable {ks : Keyspace} {bucket : String} {v : View}

theorem document?_eq (h : ks.Shows bucket v) {k : Key} (hk : k.value ≠ Session.versionSequence) :
    Server.document? (bucket ++ ":" ++ k.value) ks = .ok (v.doc? k) ks := by
  rw [Server.document?_eq, h.find?_key hk]
  cases v.doc? k <;> rfl

theorem holds_eq (h : ks.Shows bucket v) {k : Key} (hk : k.value ≠ Session.versionSequence) :
    Server.holds (bucket ++ ":" ++ k.value) ks = .ok (v.doc? k).isSome ks := by
  rw [Server.holds_eq, Table.contains, h.find?_key hk, Option.isSome_map]

theorem next_eq (h : ks.Shows bucket v) :
    Server.next (bucket ++ ":" ++ Session.versionSequence) ks =
      .ok (v.last + 1)
        (ks.insert (bucket ++ ":" ++ Session.versionSequence) (.sequence (v.last + 1))) := by
  rw [Server.next_eq, h.find?_sequence]
  by_cases hlast : v.last = 0
  · rw [if_pos hlast, hlast]
    rfl
  · rw [if_neg hlast]

theorem put_eq {name : String} {d : Document} (h : ∀ n, ks.find? name ≠ some (.sequence n)) :
    Server.put name d ks = .ok () (ks.insert name (.document d)) := by
  rw [Server.put_eq]
  split
  · next n hn => exact absurd hn (h n)
  · rfl

theorem delete_eq (h : ks.Shows bucket v) {k : Key} (hk : k.value ≠ Session.versionSequence) :
    Server.delete (bucket ++ ":" ++ k.value) ks =
      match v.doc? k with
      | none => .ok false ks
      | some _ => .ok true (ks.erase (bucket ++ ":" ++ k.value)) := by
  rw [Server.delete_eq, Table.contains, h.find?_key hk, Option.isSome_map]
  cases v.doc? k <;> rfl

end

namespace Script

variable {ks : Keyspace} {v : View} {s : Session}

theorem write_eq (h : ks.Shows s.bucket v) {c : Command} (hc : c.IsFree) (content : String) :
    ∃ ks' : Keyspace, write (s.request c) content ks = .ok (stamped v content).version.number ks' ∧
      ks'.Shows s.bucket (v.put c.key (stamped v content)) := by
  have hnext : Server.next (s.request c).sequence ks = _ := next_eq h
  have hkind : ∀ n, (ks.insert (s.bucket ++ ":" ++ Session.versionSequence)
      (.sequence (v.last + 1))).find? (s.bucket ++ ":" ++ c.key.value) ≠ some (.sequence n) := by
    intro n hn
    rw [Table.find?_insert, if_neg (qualified_ne hc), h.find?_key hc] at hn
    cases hd : v.doc? c.key with
    | none => rw [hd] at hn; cases hn
    | some d => rw [hd] at hn; cases hn
  have hput := @put_eq _ _ (stamped v content) hkind
  refine ⟨_, ?_, h.put hc (stamped v content)⟩
  simp only [write, bind, EStateM.bind, hnext]
  have hput' : Server.put (s.request c).document (stamped v content) _ = _ := hput
  unfold stamped at hput'
  simp only [hput']
  rfl

/-- What a call on the server came to is an effect: its reply, on a key space that shows what it leaves,
and that is the one there was where the effect leaves `v` as it is. -/
def Meets (ks : Keyspace) (s : Session) (v : View) (x : EStateM.Result ServerRefusal Keyspace Value)
    (e : Value × View) : Prop :=
  ∃ ks' : Keyspace, x = .ok e.1 ks' ∧ ks'.Shows s.bucket e.2 ∧ (e.2 = v → ks' = ks)

theorem meets_bind {α : Type} {x : ServerCall α} {f : α → ServerCall Value} {a : α} {ks' : Keyspace}
    {e : Value × View} (h : x ks = .ok a ks') (hf : Meets ks s v (f a ks') e) :
    Meets ks s v ((x >>= f) ks) e := by
  obtain ⟨t, ht, hrest⟩ := hf
  exact ⟨t, (bind_of_ok h).trans ht, hrest⟩

theorem meets_ite {p : Prop} {i j : Decidable p} {x y : ServerCall Value} {e e' : Value × View}
    (hx : p → Meets ks s v (x ks) e) (hy : ¬ p → Meets ks s v (y ks) e') :
    Meets ks s v ((@ite _ p i x y) ks) (@ite _ p j e e') := by
  by_cases hp : p
  · rw [if_pos hp, if_pos hp]; exact hx hp
  · rw [if_neg hp, if_neg hp]; exact hy hp

theorem meets_unchanged (h : ks.Shows s.bucket v) (reply : Value) :
    Meets ks s v (.ok reply ks) (reply, v) :=
  ⟨ks, rfl, h, fun _ => rfl⟩

theorem meets_writing (h : ks.Shows s.bucket v) {c : Command} (hc : c.IsFree) (content : String) :
    Meets ks s v ((do return written (← write (s.request c) content) : ServerCall Value) ks)
      (writing v c.key content) := by
  obtain ⟨ks', hwrite, hshows⟩ := write_eq h hc content
  exact ⟨ks', bind_of_ok hwrite, hshows, fun heq => absurd heq (View.put_ne v _ _)⟩

theorem meets_writingNumber (h : ks.Shows s.bucket v) {c : Command} (hc : c.IsFree) (x : Rounded) :
    Meets ks s v (writeNumber (s.request c) x ks) (writingNumber v c.key x) := by
  obtain ⟨ks', hwrite, hshows⟩ := write_eq h hc (Numeral.text x.toWord)
  exact ⟨ks', bind_of_ok hwrite, hshows, fun heq => absurd heq (View.put_ne v _ _)⟩

/-! ## Top theorems -/

/-- On a bucket that shows `v` a script does what its effect on `v` says, and changes nothing where that
leaves `v` as it is. -/
theorem run_request (h : ks.Shows s.bucket v) {c : Command} (hc : c.IsFree) :
    Meets ks s v (run (s.request c) ks) (effect v c) := by
  cases c with
  | get k =>
    simp only [run, Session.request, effect]
    refine meets_bind (document?_eq h hc) ?_
    simp only [Command.key]
    cases v.doc? k <;> exact meets_unchanged h _
  | create k content =>
    have hwriting := meets_writing h hc content
    simp only [run, Session.request, effect]
    have hholds := holds_eq h hc
    simp only [Command.key] at hholds
    cases hd : v.doc? k with
    | none => rw [hd] at hholds; exact meets_bind hholds hwriting
    | some d => rw [hd] at hholds; exact meets_bind hholds (meets_unchanged h _)
  | update k content demanded =>
    have hwriting := meets_writing h hc content
    simp only [run, Session.request, effect]
    refine meets_bind (document?_eq h hc) ?_
    simp only [Command.key]
    cases v.doc? k with
    | none => exact meets_unchanged h _
    | some d =>
      exact meets_ite (fun _ => meets_unchanged h _) fun _ => hwriting
  | remove k =>
    simp only [run, Session.request, effect]
    have hdelete := delete_eq h hc
    simp only [Command.key] at hdelete
    cases hd : v.doc? k with
    | none => rw [hd] at hdelete; exact meets_bind hdelete (meets_unchanged h _)
    | some d =>
      rw [hd] at hdelete
      exact meets_bind hdelete ⟨_, rfl, h.drop hc, fun heq => absurd heq (View.drop_ne hd)⟩
  | getCounter k =>
    simp only [run, Session.request, effect]
    refine meets_bind (document?_eq h hc) ?_
    simp only [Command.key]
    cases v.doc? k <;> exact meets_unchanged h _
  | increment k delta =>
    have hwriting := meets_writingNumber h hc
    simp only [run, Session.request, effect]
    refine meets_bind (document?_eq h hc) ?_
    simp only [Command.key]
    cases v.doc? k with
    | none => exact hwriting _
    | some d =>
      exact meets_ite (fun _ => hwriting _) fun _ => meets_unchanged h _

end Script

end CasStore
