import CasStore.Proofs.Clients

/-!
# Buckets beside each other

Clients of one server may have sessions of different buckets.  A request reads and writes entries under
the names of its own bucket only; so clients of other buckets make no difference to what a client is
answered, as long as no name is one of both buckets.  Not all buckets keep their names apart: one that is
named after another and a colon has some of the other's names.

    a script is carried out within the names of its request          (Script.within_run)
    no name is one of two buckets apart                              (Apart.ne)
    two buckets that are not apart share the name of a document      (exists_shared)
    two buckets are isolated if and only if they are apart           (isolated_iff)
-/

namespace CasStore

/-! ## Algorithm -/

/-- The key spaces have the same entries under the names of `P`. -/
def Keyspace.SameOn (P : String → Prop) (s t : Keyspace) : Prop :=
  ∀ name, P name → s.find? name = t.find? name

/-- The key space that a call leaves, whether it returns or is refused. -/
def ServerCall.left {α : Type} : EStateM.Result ServerRefusal Keyspace α → Keyspace
  | .ok _ s => s
  | .error _ s => s

/-- Two calls have come to the same, and left the same under the names of `P`. -/
inductive ServerCall.Alike {α : Type} (P : String → Prop) :
    EStateM.Result ServerRefusal Keyspace α → EStateM.Result ServerRefusal Keyspace α → Prop
  | ok {a s t} (h : Keyspace.SameOn P s t) : Alike P (.ok a s) (.ok a t)
  | error {e s t} (h : Keyspace.SameOn P s t) : Alike P (.error e s) (.error e t)

/-- A call reads and writes entries under names of `P` only. -/
structure ServerCall.Within {α : Type} (P : String → Prop) (c : ServerCall α) : Prop where
  keeps : ∀ s, Keyspace.SameOn (fun name => ¬ P name) (left (c s)) s
  alike : ∀ {s t}, Keyspace.SameOn P s t → Alike P (c s) (c t)

/-- The name is one of the bucket's. -/
def Session.IsNameOf (bucket name : String) : Prop := ∃ rest, name = bucket ++ ":" ++ rest

/-- What stands in front of the names of one bucket does not begin with what stands in front of the
other's names. -/
def Apart (b c : String) : Prop :=
  ¬ (b ++ ":").toList <+: (c ++ ":").toList ∧ ¬ (c ++ ":").toList <+: (b ++ ":").toList

instance (b c : String) : Decidable (Apart b c) := inferInstanceAs (Decidable (_ ∧ _))

namespace Site

/-- Every client has a live session, of the bucket that `buckets` says. -/
def Serves (w : Site) (buckets : Nat → String) : Prop :=
  ∀ i, ∃ session, (w.links i).live = some session ∧ session.bucket = buckets i

/-- The name is one of a bucket of some of the clients. -/
def NameOfMine (buckets : Nat → String) (mine : Nat → Bool) (name : String) : Prop :=
  ∃ i, mine i = true ∧ Session.IsNameOf (buckets i) name

/-- The sites are alike for some of the clients: sessions are the same, and so is what the server has
under the names of their buckets. -/
structure AlikeFor (buckets : Nat → String) (mine : Nat → Bool) (v w : Site) : Prop where
  links : v.links = w.links
  server : v.server.SameOn (NameOfMine buckets mine) w.server

/-- What some of the clients are answered, in order. -/
def answersOf (settings : Nat → Settings) (mine : Nat → Bool) (cs : List (Nat × Command)) (s : Run Site) :
    List (Except Fault LooseResult) :=
  ((cs.zip (turns (commands settings cs) s)).filter fun ct => mine ct.1.1).map fun ct => ct.2.answer

end Site

/-- Whatever clients of two buckets do, those of `c` are answered as if those of `b` did nothing. -/
def Isolated (b c : String) : Prop :=
  ∀ (settings : Nat → Settings) (buckets : Nat → String) (cs : List (Nat × Command)) (s : Run Site),
    s.world.Serves buckets → (∀ i, buckets i = b ∨ buckets i = c) →
    Site.answersOf settings (fun i => buckets i == c) cs s =
      Site.answersOf settings (fun i => buckets i == c) (cs.filter fun ic => buckets ic.1 == c) s

/-! ## Lemmas -/

/-! ### Calls within names -/

namespace ServerCall

variable {α β : Type} {P : String → Prop}

theorem within_pure (a : α) : Within P (pure a : ServerCall α) where
  keeps _ _ _ := rfl
  alike h := .ok h

theorem Within.bind {x : ServerCall α} {f : α → ServerCall β} (hx : Within P x)
    (hf : ∀ a, Within P (f a)) : Within P (x >>= f) where
  keeps s name hname := by
    have hfirst := hx.keeps s name hname
    cases h : x s with
    | ok a t =>
      rw [h] at hfirst
      rw [bind_of_ok h, (hf a).keeps t name hname]
      exact hfirst
    | error e t =>
      rw [h] at hfirst
      rw [bind_of_error h]
      exact hfirst
  alike {s t} hst := by
    have hfirst := hx.alike hst
    show Alike P (EStateM.bind x f s) (EStateM.bind x f t)
    unfold EStateM.bind
    generalize x s = left, x t = right at hfirst ⊢
    cases hfirst with
    | ok hst' => exact (hf _).alike hst'
    | error hst' => exact .error hst'

theorem within_ite {p : Prop} [Decidable p] {x y : ServerCall α} (hx : Within P x) (hy : Within P y) :
    Within P (if p then x else y) := by
  split
  · exact hx
  · exact hy

theorem sameOn_insert {s t : Keyspace} (h : Keyspace.SameOn P s t) (name : String) (e : Entry) :
    Keyspace.SameOn P (s.insert name e) (t.insert name e) := by
  intro other hother
  rw [Table.find?_insert, Table.find?_insert, h other hother]

theorem sameOn_erase {s t : Keyspace} (h : Keyspace.SameOn P s t) (name : String) :
    Keyspace.SameOn P (s.erase name) (t.erase name) := by
  intro other hother
  rw [Table.find?_erase, Table.find?_erase, h other hother]

theorem keeps_insert (s : Keyspace) {name : String} (hname : P name) (e : Entry) :
    Keyspace.SameOn (fun name => ¬ P name) (s.insert name e) s := by
  intro other hother
  have hne : other ≠ name := by
    rintro rfl
    exact hother hname
  rw [Table.find?_insert, if_neg hne]

theorem keeps_erase (s : Keyspace) {name : String} (hname : P name) :
    Keyspace.SameOn (fun name => ¬ P name) (s.erase name) s := by
  intro other hother
  have hne : other ≠ name := by
    rintro rfl
    exact hother hname
  rw [Table.find?_erase, if_neg hne]

variable {name : String}

theorem within_holds (hname : P name) : Within P (Server.holds name) where
  keeps _ _ _ := rfl
  alike {s t} hst := by
    rw [Server.holds_eq, Server.holds_eq, Table.contains, Table.contains, hst name hname]
    exact .ok hst

theorem within_document? (hname : P name) : Within P (Server.document? name) where
  keeps s _ _ := by
    rw [Server.document?_eq]
    rcases s.find? name with _ | (n | d) <;> rfl
  alike {s t} hst := by
    rw [Server.document?_eq, Server.document?_eq, hst name hname]
    rcases t.find? name with _ | (n | d)
    · exact .ok hst
    · exact .error hst
    · exact .ok hst

theorem within_next (hname : P name) : Within P (Server.next name) where
  keeps s := by
    rw [Server.next_eq]
    rcases s.find? name with _ | (n | d)
    · exact keeps_insert s hname _
    · exact keeps_insert s hname _
    · exact fun _ _ => rfl
  alike {s t} hst := by
    rw [Server.next_eq, Server.next_eq, hst name hname]
    rcases t.find? name with _ | (n | d)
    · exact .ok (sameOn_insert hst _ _)
    · exact .ok (sameOn_insert hst _ _)
    · exact .error hst

theorem within_put (hname : P name) (d : Document) : Within P (Server.put name d) where
  keeps s := by
    rw [Server.put_eq]
    rcases s.find? name with _ | (n | d')
    · exact keeps_insert s hname _
    · exact fun _ _ => rfl
    · exact keeps_insert s hname _
  alike {s t} hst := by
    rw [Server.put_eq, Server.put_eq, hst name hname]
    rcases t.find? name with _ | (n | d')
    · exact .ok (sameOn_insert hst _ _)
    · exact .error hst
    · exact .ok (sameOn_insert hst _ _)

theorem within_delete (hname : P name) : Within P (Server.delete name) where
  keeps s := by
    rw [Server.delete_eq]
    split
    · exact keeps_erase s hname
    · exact fun _ _ => rfl
  alike {s t} hst := by
    rw [Server.delete_eq, Server.delete_eq, Table.contains, Table.contains, hst name hname]
    split
    · exact .ok (sameOn_erase hst name)
    · exact .ok hst

end ServerCall

/-! ### Requests within names -/

section

variable {P : String → Prop} {r : Request}

open ServerCall

theorem Script.within_write (hdocument : P r.document) (hsequence : P r.sequence) (content : String) :
    Within P (write r content) :=
  (within_next hsequence).bind fun _ => (within_put hdocument _).bind fun _ => within_pure _

theorem Script.within_writeNumber (hdocument : P r.document) (hsequence : P r.sequence) (x : Rounded) :
    Within P (writeNumber r x) :=
  (within_write hdocument hsequence _).bind fun _ => within_pure _

/-- A script is carried out within the names of its request. -/
theorem Script.within_run (hdocument : P r.document) (hsequence : P r.sequence) :
    Within P (run r) := by
  have hwritten : ∀ content, Within P (do return written (← write r content)) :=
    fun content => (within_write hdocument hsequence content).bind fun _ => within_pure _
  obtain ⟨document, sequence, c⟩ := r
  cases c with
  | get k | getCounter k =>
    refine (within_document? hdocument).bind fun d => ?_
    cases d <;> exact within_pure _
  | create k content =>
    refine (within_holds hdocument).bind fun present => ?_
    exact within_ite (within_pure _) (hwritten content)
  | update k content expected =>
    refine (within_document? hdocument).bind fun d => ?_
    cases d with
    | none => exact within_pure _
    | some d => exact within_ite (within_pure _) (hwritten content)
  | remove k =>
    refine (within_delete hdocument).bind fun present => ?_
    exact within_ite (within_pure _) (within_pure _)
  | increment k delta =>
    have hnumber := Script.within_writeNumber hdocument hsequence
    refine (within_document? hdocument).bind fun d => ?_
    cases d with
    | none => exact hnumber _
    | some d => exact within_ite (hnumber _) (within_pure _)

/-- What the server answers to a request depends on the entries under its names only. -/
theorem Keyspace.SameOn.answer {s t : Keyspace} (h : s.SameOn P t) (hdocument : P r.document)
    (hsequence : P r.sequence) :
    (s.answer r).1 = (t.answer r).1 ∧ (s.answer r).2.SameOn P (t.answer r).2 := by
  unfold Keyspace.answer
  cases r.obstacle? with
  | some p => exact ⟨rfl, h⟩
  | none =>
    have hrun := (Script.within_run hdocument hsequence).alike h
    simp only
    generalize Script.run r s = left, Script.run r t = right at hrun ⊢
    cases hrun with
    | ok h' => exact ⟨rfl, h'⟩
    | error h' => exact ⟨rfl, h'⟩

/-- And the entries under all other names stay as they are. -/
theorem Keyspace.keeps_answer (s : Keyspace) (hdocument : P r.document) (hsequence : P r.sequence) :
    (s.answer r).2.SameOn (fun name => ¬ P name) s := by
  unfold Keyspace.answer
  cases r.obstacle? with
  | some p => exact fun _ _ => rfl
  | none =>
    have hrun := (Script.within_run hdocument hsequence).keeps s
    cases hs : Script.run r s with
    | ok v s' => rw [hs] at hrun; exact hrun
    | error e s' => rw [hs] at hrun; exact hrun

end

/-! ### Names of buckets -/

theorem Session.isNameOf_qualified (session : Session) (name : String) :
    IsNameOf session.bucket (session.qualified name) := ⟨name, rfl⟩

/-- No name is one of two buckets apart. -/
theorem Apart.ne {b c name : String} (h : Apart b c) (hb : Session.IsNameOf b name) :
    ¬ Session.IsNameOf c name := by
  rintro ⟨rest', hname'⟩
  obtain ⟨rest, rfl⟩ := hb
  have hprefix : (b ++ ":").toList <+: (b ++ ":" ++ rest).toList :=
    ⟨rest.toList, (String.toList_append ..).symm⟩
  have hprefix' : (c ++ ":").toList <+: (b ++ ":" ++ rest).toList :=
    ⟨rest'.toList, by rw [hname']; exact (String.toList_append ..).symm⟩
  rcases List.prefix_or_prefix_of_prefix hprefix hprefix' with hle | hle
  · exact h.1 hle
  · exact h.2 hle

theorem Apart.symm {b c : String} (h : Apart b c) : Apart c b := ⟨h.2, h.1⟩

/-! ### Runs of clients -/

namespace Site

variable {settings : Nat → Settings} {mine : Nat → Bool} {i : Nat} {c : Command}
  {cs : List (Nat × Command)} {s t : Run Site}

theorem answersOf_cons (mine : Nat → Bool) (s : Run Site) :
    answersOf settings mine ((i, c) :: cs) s =
      if mine i then ((client (settings i) i).backend.turn c s).answer ::
        answersOf settings mine cs ((client (settings i) i).backend.turn c s).after
      else answersOf settings mine cs ((client (settings i) i).backend.turn c s).after := by
  have hturns : turns (commands settings ((i, c) :: cs)) s = (client (settings i) i).backend.turn c s ::
    turns (commands settings cs) ((client (settings i) i).backend.turn c s).after := rfl
  rw [answersOf, hturns, List.zip_cons_cons, List.filter_cons]
  cases mine i <;> rfl

variable {buckets : Nat → String}

/-- A client is answered alike in both, and that leaves them alike. -/
theorem AlikeFor.turn (h : AlikeFor buckets mine s.world t.world) (hs : s.world.Serves buckets)
    (hi : mine i = true) (settings : Settings) (c : Command) :
    ((client settings i).backend.turn c s).answer = ((client settings i).backend.turn c t).answer ∧
      AlikeFor buckets mine ((client settings i).backend.turn c s).after.world
        ((client settings i).backend.turn c t).after.world := by
  obtain ⟨session, hlive, hbucket⟩ := hs i
  have hname : ∀ name, NameOfMine buckets mine (session.qualified name) := fun name =>
    ⟨i, hi, hbucket ▸ session.isNameOf_qualified name⟩
  obtain ⟨hanswer, hworld⟩ := @turn_live s settings i c session hlive
  obtain ⟨hanswer', hworld'⟩ := @turn_live t settings i c session (h.links ▸ hlive)
  obtain ⟨hdelivery, hafter⟩ := h.server.answer (r := session.request c) (hname _) (hname _)
  refine ⟨?_, ?_⟩
  · rw [hanswer, hanswer', hdelivery]
  · rw [hworld, hworld']
    exact ⟨h.links, hafter⟩

/-- What another client does, of a bucket apart, is not seen. -/
theorem AlikeFor.turn_left (h : AlikeFor buckets mine s.world t.world) (hs : s.world.Serves buckets)
    (hi : ∀ j, mine j = true → Apart (buckets i) (buckets j)) (settings : Settings) (c : Command) :
    AlikeFor buckets mine ((client settings i).backend.turn c s).after.world t.world := by
  obtain ⟨session, hlive, hbucket⟩ := hs i
  obtain ⟨-, hworld⟩ := @turn_live s settings i c session hlive
  have hkeeps := s.world.server.keeps_answer (P := Session.IsNameOf session.bucket)
    (r := session.request c) (session.isNameOf_qualified _) (session.isNameOf_qualified _)
  rw [hworld]
  refine ⟨h.links, fun name hname => ?_⟩
  obtain ⟨j, hj, hmine⟩ := hname
  have hother : ¬ Session.IsNameOf session.bucket name := by
    rw [hbucket]
    exact (hi j hj).symm.ne hmine
  exact (hkeeps name hother).trans (h.server name ⟨j, hj, hmine⟩)

theorem serves_turn (hs : s.world.Serves buckets) (settings : Settings) (i : Nat) (c : Command) :
    ((client settings i).backend.turn c s).after.world.Serves buckets := by
  obtain ⟨session, hlive, -⟩ := hs i
  obtain ⟨-, hworld⟩ := @turn_live s settings i c session hlive
  rw [hworld]
  exact hs

/-- Where the buckets of all other clients are apart, clients are answered as if the others did
nothing. -/
theorem answersOf_filter (h : AlikeFor buckets mine s.world t.world) (hs : s.world.Serves buckets)
    (hapart : ∀ i j, mine i = false → mine j = true → Apart (buckets i) (buckets j)) :
    answersOf settings mine cs s = answersOf settings mine (cs.filter fun ic => mine ic.1) t := by
  induction cs generalizing s t with
  | nil => rfl
  | cons ic cs ih =>
    obtain ⟨i, c⟩ := ic
    rw [answersOf_cons, List.filter_cons]
    cases hi : mine i with
    | true =>
      obtain ⟨hanswer, hafter⟩ := h.turn hs hi (settings i) c
      rw [if_pos rfl, if_pos rfl, answersOf_cons, hi, if_pos rfl, hanswer,
        ih hafter (serves_turn hs (settings i) i c)]
    | false =>
      rw [if_neg Bool.false_ne_true, if_neg Bool.false_ne_true]
      exact ih (h.turn_left hs (hapart i · hi) (settings i) c) (serves_turn hs (settings i) i c)

end Site

/-! ### Shared names -/

theorem String.eq_append_of_prefix {s t : String} (h : s.toList <+: t.toList) : ∃ x, t = s ++ x := by
  obtain ⟨xs, hxs⟩ := h
  refine ⟨.ofList xs, String.toList_injective ?_⟩
  rw [String.toList_append, String.toList_ofList, hxs]

/-- A key that ends in a letter, as the name of the sequence does not. -/
def letterKey (x : String) : Key := ⟨x ++ "c", by simp⟩

theorem letterKey_free (x : String) : (letterKey x).value ≠ Session.versionSequence := by
  intro h
  have hlast := congrArg (fun s : String => s.toList.getLast?) h
  have hletter : (letterKey x).value.toList.getLast? = some 'c' := by
    rw [letterKey, String.toList_append]
    exact List.getLast?_concat
  rw [hletter] at hlast
  exact absurd hlast (by decide)

/-- Where the names of one bucket continue what stands in front of the other's, both have a name. -/
theorem shared_of_eq_append {b c x : String} (h : c ++ ":" = b ++ ":" ++ x) :
    b ++ ":" ++ (letterKey x).value = c ++ ":" ++ (letterKey "").value := by
  rw [letterKey, letterKey, h, ← String.append_assoc]
  rfl

/-- Two buckets that are not apart share the name of a document. -/
theorem exists_shared {b c : String} (h : ¬ Apart b c) :
    ∃ k l : Key, k.value ≠ Session.versionSequence ∧ b ++ ":" ++ k.value = c ++ ":" ++ l.value := by
  by_cases hb : (b ++ ":").toList <+: (c ++ ":").toList
  · obtain ⟨x, hx⟩ := String.eq_append_of_prefix hb
    exact ⟨letterKey x, letterKey "", letterKey_free x, shared_of_eq_append hx⟩
  · have hc : (c ++ ":").toList <+: (b ++ ":").toList :=
      Decidable.byContradiction fun hc => h ⟨hb, hc⟩
    obtain ⟨x, hx⟩ := String.eq_append_of_prefix hc
    exact ⟨letterKey "", letterKey x, letterKey_free "", (shared_of_eq_append hx).symm⟩

namespace Site

/-- A new site with two clients: the first has a session of `b`, the second one of `c`. -/
def ofTwo (b c : String) : Run Site :=
  Run.start ⟨fun i => Link.idle.connect (if i = 0 then b else c), .empty⟩

/-- The first client creates a document, the second one looks for one. -/
def creatingAndLooking (k l : Key) : List (Nat × Command) := [(0, .create k "x"), (1, .get l)]

variable {b c : String}

/-- A client that looks for a document the server does not have is told so. -/
theorem answer_look_of_none (hs : s.world.Serves buckets) {settings : Settings} {k : Key}
    (h : s.world.server.find? (buckets i ++ ":" ++ k.value) = none) :
    ((client settings i).backend.turn (.get k) s).answer =
      .ok (.inl (.error (Command.get k).subject.absent)) := by
  obtain ⟨session, hlive, hbucket⟩ := hs i
  rw [← hbucket] at h
  have hdocument := Server.document?_eq (session.qualified k.value) s.world.server
  rw [Session.qualified, h] at hdocument
  have hrun : Script.run (session.request (.get k)) s.world.server = .ok .null _ := bind_of_ok hdocument
  obtain ⟨hanswer, -⟩ := @turn_live s settings i (.get k) session hlive
  rw [hanswer, answer_of_ok rfl hrun]
  rfl

theorem answer_look_of_document (hs : s.world.Serves buckets) {settings : Settings} {k : Key}
    {d : Document} (h : s.world.server.find? (buckets i ++ ":" ++ k.value) = some (.document d)) :
    ((client settings i).backend.turn (.get k) s).answer =
      .ok (.inl (.ok (.document (.text d.content) ⟨Rounded.word d.version.number⟩))) := by
  obtain ⟨session, hlive, hbucket⟩ := hs i
  rw [← hbucket] at h
  have hdocument := Server.document?_eq (session.qualified k.value) s.world.server
  rw [Session.qualified, h] at hdocument
  have hrun : Script.run (session.request (.get k)) s.world.server =
      .ok (.list [.text d.content, .int (Rounded.word d.version.number)]) _ := bind_of_ok hdocument
  obtain ⟨hanswer, -⟩ := @turn_live s settings i (.get k) session hlive
  rw [hanswer, answer_of_ok rfl hrun]
  exact Delivery.outcome_document ..

/-- Creating a document on a new site leaves it under its name. -/
theorem find?_created (settings : Settings) {k : Key} (hk : k.value ≠ Session.versionSequence) :
    ∃ d, ((client settings 0).backend.turn (.create k "x") (ofTwo b c)).after.world.server.find?
      (b ++ ":" ++ k.value) = some (.document d) := by
  let session : Session := ⟨0, b⟩
  have hempty : Keyspace.Shows .empty session.bucket ⟨fun _ => none, 0⟩ :=
    Keyspace.shows_empty fun _ => rfl
  obtain ⟨ks, hrun, hshows, -⟩ := Script.run_request (c := .create k "x") hempty hk
  obtain ⟨-, hworld⟩ := @turn_live (ofTwo b c) settings 0 (.create k "x") session rfl
  have hanswer : Keyspace.answer (session.request (.create k "x")) (ofTwo b c).world.server = _ :=
    answer_of_ok rfl hrun
  have hcreated := View.doc?_put_self ⟨fun _ => none, 0⟩ k (Script.stamped ⟨fun _ => none, 0⟩ "x")
  rw [hworld, hanswer]
  exact ⟨_, (hshows.find?_key hk).trans (congrArg (Option.map Entry.document) hcreated)⟩

theorem answersOf_creatingAndLooking {k l : Key} (h0 : mine 0 = false) (h1 : mine 1 = true)
    (s : Run Site) :
    answersOf settings mine (creatingAndLooking k l) s =
      [((client (settings 1) 1).backend.turn (.get l)
        ((client (settings 0) 0).backend.turn (.create k "x") s).after).answer] ∧
    answersOf settings mine ((creatingAndLooking k l).filter fun ic => mine ic.1) s =
      [((client (settings 1) 1).backend.turn (.get l) s).answer] := by
  refine ⟨?_, ?_⟩
  · rw [creatingAndLooking, answersOf_cons, h0, if_neg Bool.false_ne_true, answersOf_cons, h1, if_pos rfl]
    rfl
  · rw [creatingAndLooking, List.filter_cons, h0, if_neg Bool.false_ne_true, List.filter_cons, h1,
      if_pos rfl, List.filter_nil, answersOf_cons, h1, if_pos rfl]
    rfl

/-- Where two buckets share the name of a document, clients of one see what those of the other do. -/
theorem not_isolated {k l : Key} (hne : b ≠ c) (hk : k.value ≠ Session.versionSequence)
    (hshared : b ++ ":" ++ k.value = c ++ ":" ++ l.value) : ¬ Isolated b c := by
  intro hisolated
  let buckets : Nat → String := fun i => if i = 0 then b else c
  have hserves : (ofTwo b c).world.Serves buckets := fun i => ⟨_, rfl, rfl⟩
  have htwo : ∀ i, buckets i = b ∨ buckets i = c := fun i => by
    by_cases hi : i = 0
    · exact .inl (if_pos hi)
    · exact .inr (if_neg hi)
  have h0 : (buckets 0 == c) = false := beq_false_of_ne hne
  have h1 : (buckets 1 == c) = true := beq_self_eq_true c
  have hsame := hisolated (fun _ => Settings.default) buckets (creatingAndLooking k l) (ofTwo b c)
    hserves htwo
  obtain ⟨hboth, hone⟩ := @answersOf_creatingAndLooking (fun i => buckets i == c)
    (fun _ => Settings.default) k l h0 h1 (ofTwo b c)
  rw [hboth, hone] at hsame
  -- after the other client's creation the document is found, without it is not
  obtain ⟨d, hcreated⟩ := @find?_created b c Settings.default k hk
  have hserves' := serves_turn hserves Settings.default 0 (.create k "x")
  rw [answer_look_of_document hserves' (hshared ▸ hcreated), answer_look_of_none hserves rfl] at hsame
  cases hsame

end Site

/-! ## Top theorems -/

/-- Two different buckets of one server are isolated exactly if they are apart: whatever clients of both
do with any keys, in any order and on any entries, those of one bucket are answered as if those of the
other did nothing. -/
theorem isolated_iff {b c : String} (hne : b ≠ c) : Isolated b c ↔ Apart b c := by
  refine ⟨fun hisolated => Decidable.byContradiction fun h => ?_, fun h => ?_⟩
  · obtain ⟨k, l, hk, hshared⟩ := exists_shared h
    exact Site.not_isolated hne hk hshared hisolated
  · intro settings buckets cs s hserves htwo
    have hapart : ∀ i j, (buckets i == c) = false → (buckets j == c) = true →
        Apart (buckets i) (buckets j) := by
      intro i j hi hj
      have hother : buckets i = b := (htwo i).resolve_right (beq_eq_false_iff_ne.1 hi)
      rw [hother, beq_iff_eq.1 hj]
      exact h
    exact Site.answersOf_filter ⟨rfl, fun _ _ => rfl⟩ hserves hapart

/-- The buckets of two environments are isolated. -/
theorem environments_isolated : "staging" ≠ "live" ∧ Isolated "staging" "live" :=
  ⟨by decide, (isolated_iff (by decide)).2 (by decide)⟩

/-- A bucket with a colon in its name is not isolated from the one named before the colon: its document
`c` is the other's document `b:c`. -/
theorem nested_bucket_seen : "a" ≠ "a:b" ∧ ¬ Isolated "a" "a:b" ∧
    (Site.answersOf (fun _ => Settings.default) (fun i => i == 1)
      (Site.creatingAndLooking ⟨"b:c", by decide⟩ ⟨"c", by decide⟩) (Site.ofTwo "a" "a:b") =
        [.ok (.inl (.ok (Document.toValue ⟨"x", ⟨1⟩⟩)))]) ∧
    (Site.answersOf (fun _ => Settings.default) (fun i => i == 1) [(1, .get ⟨"c", by decide⟩)]
      (Site.ofTwo "a" "a:b") = [.ok (.inl (.error (Fault.notFound "c" "get")))]) := by
  refine ⟨by decide, ?_, rfl, rfl⟩
  exact Site.not_isolated (k := ⟨"b:c", by decide⟩) (l := ⟨"c", by decide⟩) (by decide) (by decide)
    (by decide)

end CasStore
