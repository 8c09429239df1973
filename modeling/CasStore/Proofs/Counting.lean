import CasStore.Proofs.CounterSums
import CasStore.Proofs.Separation
import Mathlib

/-!
# Counting in memory

A counter is kept as a text only: each increment reads it, adds to it and writes the sum.  No increment is
lost on the way.  What a counter holds at any time is the number that it started from and all the
differences since, whatever else is done meanwhile: as long as no sum is too long to be written, and
nothing but counting and reading is done to its own key.

    every text of a counter is read as its value                     (Counter.read_of_denotes)
    a course without differences leaves a content as it is           (Store.content?_of_idle)
    a course leaves the canonical text of the sum                    (content_after)
    every increment comes to the sum so far                          (no_increment_lost)
-/

namespace CasStore

open Text

variable {σ : Type}

/-! ## Algorithm -/

/-- The content is a counter of value `n`: blanks, at most one sign, digits and blanks. -/
inductive Counter.Denotes : String → Int → Prop
  | mk {before sign ds after : List Char} (hbefore : ∀ c ∈ before, isAsciiBlank c = true)
      (hsign : sign ∈ [[], ['+'], ['-']]) (hne : ds ≠ []) (hdigits : ∀ c ∈ ds, c.isDigit = true)
      (hshort : ds.length ≤ Numeral.maxDigits) (hafter : ∀ c ∈ after, isAsciiBlank c = true) :
      Denotes (String.ofList (before ++ (sign ++ (ds ++ after))))
        (signed (sign = ['-']) (Numeral.value ds))

/-- Counting starts from `n`: there is nothing yet, and `n` is 0, or a counter of value `n`. -/
inductive Counter.StartsFrom : Option String → Int → Prop
  | absent : StartsFrom none 0
  | denoted {content n} (h : Denotes content n) : StartsFrom (some content) n

/-- The difference that a command makes to the counter `k`, if it is an increment of it. -/
def Command.deltaOn? (k : Key) : Command → Option Int
  | .increment l delta => if l = k then some delta else none
  | _ => none

/-- The differences that a course makes to the counter `k`, in order. -/
def deltasOn (k : Key) (cs : List Command) : List Int := cs.filterMap (Command.deltaOn? k)

/-- The command does nothing but counting and reading to `k`. -/
def Command.OnlyCounts (k : Key) : Command → Prop
  | .get _ | .getCounter _ | .increment _ _ => True
  | c => c.key ≠ k

instance (k : Key) (c : Command) : Decidable (c.OnlyCounts k) := by
  cases c <;> unfold Command.OnlyCounts <;> infer_instance

/-- Every sum on the way from `n` can be written. -/
def SumsFit (n : Int) (deltas : List Int) : Prop :=
  ∀ front, front <+: deltas → front ≠ [] →
    (Numeral.natDigits (n + front.sum).natAbs).length ≤ Numeral.maxDigits

/-! ## Lemmas -/

/-! ### Texts -/

/-- Every text of a counter is read as its value. -/
theorem Counter.read_of_denotes {content : String} {n : Int} (h : Denotes content n) :
    read content = .ok n := by
  cases h with
  | @mk before sign ds after hbefore hsign hne hdigits hshort hafter =>
    unfold read
    simp only [String.toList_ofList, parts?_append hbefore hsign hne hdigits hafter, if_pos hshort]

theorem Counter.StartsFrom.countsFrom {content : Option String} {n : Int} (h : StartsFrom content n) :
    CountsFrom content n := by
  cases h with
  | absent => exact .absent
  | denoted h => exact .stored (read_of_denotes h)

/-! ### Sums -/

section

variable {n delta : Int} {deltas front : List Int}

theorem SumsFit.of_prefix (h : SumsFit n deltas) (hfront : front <+: deltas) : SumsFit n front :=
  fun part hpart => h part (hpart.trans hfront)

theorem SumsFit.first (h : SumsFit n (delta :: deltas)) :
    (Numeral.natDigits (n + delta).natAbs).length ≤ Numeral.maxDigits := by
  have hone := h [delta] ⟨deltas, rfl⟩ (List.cons_ne_nil _ _)
  rwa [List.sum_singleton] at hone

theorem SumsFit.rest (h : SumsFit n (delta :: deltas)) : SumsFit (n + delta) deltas := by
  intro part hpart _
  have hcons := h (delta :: part) (List.cons_prefix_cons.2 ⟨rfl, hpart⟩) (List.cons_ne_nil _ _)
  rwa [List.sum_cons, ← Int.add_assoc] at hcons

/-- The sum of all differences fits, if there are any. -/
theorem SumsFit.whole (h : SumsFit n deltas) (hne : deltas ≠ []) :
    (Numeral.natDigits (n + deltas.sum).natAbs).length ≤ Numeral.maxDigits :=
  h deltas (List.prefix_refl _) hne

/-- Small numbers have sums that can be written. -/
theorem SumsFit.of_lt (h : n.natAbs + (deltas.map Int.natAbs).sum < 10 ^ 20) : SumsFit n deltas := by
  intro front hfront _
  have hle : ∀ {deltas front : List Int}, front <+: deltas →
      front.sum.natAbs ≤ (deltas.map Int.natAbs).sum := by
    intro deltas
    induction deltas with
    | nil =>
      intro front hfront
      rw [List.prefix_nil.1 hfront]
      exact Nat.le_refl _
    | cons d ds ih =>
      intro front hfront
      cases front with
      | nil => exact Nat.zero_le _
      | cons e es =>
        obtain ⟨rfl, hes⟩ := List.cons_prefix_cons.1 hfront
        have := ih hes
        rw [List.sum_cons, List.map_cons, List.sum_cons]
        omega
  have := hle hfront
  exact Numeral.natDigits_length_le_maxDigits (by omega)

end

theorem Command.eq_increment_of_deltaOn? {c : Command} {k : Key} {delta : Int}
    (h : c.deltaOn? k = some delta) : c = .increment k delta := by
  cases c with
  | increment l d =>
    rw [deltaOn?] at h
    split at h
    · next hl => cases h; rw [hl]
    · cases h
  | get | create | update | remove | getCounter => cases h

/-! ### Courses -/

namespace Store

variable {slot : Slot σ Store} {k : Key} {n : Int} {cs : List Command} {s : Run σ}

/-- Reading leaves the store as it is. -/
theorem afterCommand_of_reading {c : Command} (hc : c.isChange = false) (store : Store) :
    store.afterCommand c = store := by
  cases c with
  | get l =>
    simp only [afterCommand, apply]
    cases store.docs.find? l <;> rfl
  | getCounter l =>
    simp only [afterCommand, apply]
    cases store.docs.find? l with
    | none => rfl
    | some d =>
      simp only
      cases readCounter d.content <;> rfl
  | create | update | remove | increment => cases hc

/-- What makes no difference to a counter leaves its content as it is. -/
theorem content?_of_idle {c : Command} (hc : c.OnlyCounts k) (hidle : c.deltaOn? k = none)
    (store : Store) : (store.afterCommand c).content? k = store.content? k := by
  by_cases hkey : k = c.key
  · cases c with
    | get l => rw [afterCommand_of_reading rfl]
    | getCounter l => rw [afterCommand_of_reading rfl]
    | increment l delta =>
      rw [Command.deltaOn?, if_pos (show l = k from hkey.symm)] at hidle
      cases hidle
    | create l content => exact absurd hkey.symm hc
    | update l content v => exact absurd hkey.symm hc
    | remove l => exact absurd hkey.symm hc
  · exact content?_afterCommand_of_ne store hkey

/-- A course leaves the canonical text of the sum of its differences, or the content as it is if it makes
none. -/
theorem content_after (hslot : slot.Lawful) (hcs : ∀ c ∈ cs, c.OnlyCounts k)
    (hstart : CountsFrom ((slot.get s.world).content? k) n) (hfits : SumsFit n (deltasOn k cs)) :
    (slot.get (afterTurns (commands slot cs) s).world).content? k =
      if deltasOn k cs = [] then (slot.get s.world).content? k
      else some (Numeral.text (n + (deltasOn k cs).sum)) := by
  induction cs generalizing n s with
  | nil => rfl
  | cons c cs ih =>
    have hc := hcs c (List.mem_cons_self ..)
    have hcs' : ∀ c ∈ cs, c.OnlyCounts k := fun c hc => hcs c (List.mem_cons_of_mem _ hc)
    show (slot.get (afterTurns (commands slot cs) ((backend slot).turn c s).after).world).content? k = _
    cases hdelta : c.deltaOn? k with
    | none =>
      have hsame : (slot.get ((backend slot).turn c s).after.world).content? k =
          (slot.get s.world).content? k := by
        rw [get_turn hslot, content?_of_idle hc hdelta]
      have hdeltas : deltasOn k (c :: cs) = deltasOn k cs := List.filterMap_cons_none hdelta
      rw [hdeltas] at hfits ⊢
      rw [ih hcs' (hsame ▸ hstart) hfits, hsame]
    | some delta =>
      have hdeltas : deltasOn k (c :: cs) = delta :: deltasOn k cs := List.filterMap_cons_some hdelta
      have hincrement := Command.eq_increment_of_deltaOn? hdelta
      rw [hdeltas] at hfits ⊢
      have hstored : (slot.get ((backend slot).turn c s).after.world).content? k =
          some (Numeral.text (n + delta)) := by
        rw [hincrement]
        exact (countsTo hslot hstart hfits.first).stored
      have hfrom : CountsFrom ((slot.get ((backend slot).turn c s).after.world).content? k) (n + delta) := by
        rw [hstored]
        exact .stored (Counter.read_text hfits.first)
      rw [ih hcs' hfrom hfits.rest, if_neg (List.cons_ne_nil _ _), List.sum_cons, ← Int.add_assoc]
      split
      · next hnil => rw [hstored, hnil, List.sum_nil, Int.add_zero]
      · rfl

/-- After a course the counter stands at the sum of its differences. -/
theorem countsFrom_after (hslot : slot.Lawful) (hcs : ∀ c ∈ cs, c.OnlyCounts k)
    (hstart : CountsFrom ((slot.get s.world).content? k) n) (hfits : SumsFit n (deltasOn k cs)) :
    CountsFrom ((slot.get (afterTurns (commands slot cs) s).world).content? k)
      (n + (deltasOn k cs).sum) := by
  rw [content_after hslot hcs hstart hfits]
  split
  · next hnil =>
    rw [hnil, List.sum_nil, Int.add_zero]
    exact hstart
  · next hne => exact .stored (Counter.read_text (hfits.whole hne))

/-- A counter that is there is read as the number that it stands at. -/
theorem reads_of_countsFrom (h : CountsFrom ((slot.get s.world).content? k) n)
    (hstored : (slot.get s.world).content? k ≠ none) :
    ((backend slot).turn (.getCounter k) s).Answers (.int n) := by
  rw [Turn.Answers, answer_turn, answered]
  unfold content? at h hstored
  cases hfind : (slot.get s.world).docs.find? k with
  | none => rw [hfind] at hstored; exact absurd rfl hstored
  | some d =>
    rw [hfind] at h
    cases h with
    | stored hread =>
      simp only [apply, hfind, readCounter, hread]
      rfl

end Store

/-! ## Top theorems -/

/-- No increment of a counter in memory is lost, whatever is done to other keys and however often the
counter is read meanwhile.  Every increment comes to the sum so far, its text is what is stored from then
on, a reading at any time answers with it, and in the end the order of the increments makes no
difference. -/
theorem no_increment_lost {slot : Slot σ Store} (hslot : slot.Lawful) (k : Key) (n : Int)
    (cs : List Command) (s : Run σ) (hstart : Counter.StartsFrom ((slot.get s.world).content? k) n)
    (hcs : ∀ c ∈ cs, c.OnlyCounts k) (hfits : SumsFit n (deltasOn k cs)) :
    (∀ front back delta, cs = front ++ .increment k delta :: back →
      (Store.backend slot).CountsTo (fun w => (slot.get w).content? k) k delta
        (afterTurns (Store.commands slot front) s) (n + (deltasOn k front).sum + delta)) ∧
    (∀ front back, cs = front ++ back →
      let t := afterTurns (Store.commands slot front) s
      (deltasOn k front ≠ [] →
        (slot.get t.world).content? k = some (Numeral.text (n + (deltasOn k front).sum))) ∧
      ((slot.get t.world).content? k ≠ none →
        ((Store.backend slot).turn (.getCounter k) t).Answers (.int (n + (deltasOn k front).sum)))) ∧
    ∀ cs' s', Counter.StartsFrom ((slot.get s'.world).content? k) n →
      (∀ c ∈ cs', c.OnlyCounts k) → SumsFit n (deltasOn k cs') →
      (deltasOn k cs').Perm (deltasOn k cs) → deltasOn k cs ≠ [] →
      (slot.get (afterTurns (Store.commands slot cs') s').world).content? k =
        (slot.get (afterTurns (Store.commands slot cs) s).world).content? k := by
  have hcounts := hstart.countsFrom
  have hpart : ∀ front back, cs = front ++ back →
      (∀ c ∈ front, c.OnlyCounts k) ∧ deltasOn k cs = deltasOn k front ++ deltasOn k back := by
    rintro front back rfl
    exact ⟨fun c hc => hcs c (List.mem_append_left _ hc), List.filterMap_append⟩
  refine ⟨fun front back delta heq => ?_, fun front back heq => ⟨fun hne => ?_, fun hne => ?_⟩,
    fun cs' s' hstart' hcs' hfits' hperm hne => ?_⟩
  · obtain ⟨hfront, hdeltas⟩ := hpart front _ heq
    have hnext : deltasOn k (.increment k delta :: back) = delta :: deltasOn k back :=
      List.filterMap_cons_some (if_pos rfl)
    rw [hdeltas, hnext] at hfits
    have hfits' := hfits (deltasOn k front ++ [delta])
      ⟨deltasOn k back, List.append_assoc ..⟩ (List.append_ne_nil_of_right_ne_nil _ (List.cons_ne_nil _ _))
    rw [List.sum_append, List.sum_singleton, ← Int.add_assoc] at hfits'
    exact Store.countsTo hslot (Store.countsFrom_after hslot hfront hcounts
      (hfits.of_prefix (List.prefix_append ..))) hfits'
  · obtain ⟨hfront, hdeltas⟩ := hpart front back heq
    rw [hdeltas] at hfits
    rw [Store.content_after hslot hfront hcounts (hfits.of_prefix (List.prefix_append ..)), if_neg hne]
  · obtain ⟨hfront, hdeltas⟩ := hpart front back heq
    rw [hdeltas] at hfits
    exact Store.reads_of_countsFrom (Store.countsFrom_after hslot hfront hcounts
      (hfits.of_prefix (List.prefix_append ..))) hne
  · have hne' : deltasOn k cs' ≠ [] := fun hnil => hne (List.nil_perm.1 (hnil ▸ hperm))
    rw [Store.content_after hslot hcs' hstart'.countsFrom hfits', if_neg hne',
      Store.content_after hslot hcs hcounts hfits, if_neg hne, hperm.sum_eq]

/-- The key of a counter. -/
abbrev Key.hits : Key := ⟨"hits", by decide⟩

/-- A counter of value 7, with blanks, a sign and zeros, and a document beside it. -/
def paddedStart : StartMap where
  docs := .ofList [(.hits, ⟨" +007\t", ⟨3⟩⟩), (.a, ⟨"x", ⟨1⟩⟩)]
  lastVersion := none

/-- The counter goes up and down while it is read and the document is edited. -/
def upAndDown : List Command :=
  [.increment .hits 10, .getCounter .hits, .update .a "y" .none, .increment .hits (-20), .remove .a, .get .hits,
    .increment .hits 3]

/-- The same differences in another order. -/
def downAndUp : List Command :=
  [.increment .hits (-20), .increment .hits 3, .create .a "z", .increment .hits 10]

/-- From 7 the counter goes to 17, to -3 and to 0, in either order to the same text. -/
theorem up_and_down_counted :
    (Counter.StartsFrom ((Store.ofStart paddedStart).content? .hits) 7 ∧
      (∀ c ∈ upAndDown, c.OnlyCounts .hits) ∧ SumsFit 7 (deltasOn .hits upAndDown)) ∧
    (Store.backend Slot.whole).CountsTo (Store.content? .hits) .hits (-20)
      (afterTurns (Store.commands Slot.whole (upAndDown.take 3)) (Run.start (Store.ofStart paddedStart)))
      (-3) ∧
    Store.content? .hits (afterTurns (Store.commands Slot.whole upAndDown)
      (Run.start (Store.ofStart paddedStart))).world = some "0" ∧
    Store.content? .hits (afterTurns (Store.commands Slot.whole downAndUp)
      (Run.start (Store.ofStart paddedStart))).world = some "0" := by
  have hdenotes : Counter.Denotes " +007\t" 7 :=
    @Counter.Denotes.mk [' '] ['+'] ['0', '0', '7'] ['\t'] (List.all_eq_true.1 rfl) (by decide)
      (List.cons_ne_nil _ _) (List.all_eq_true.1 rfl) (by decide) (List.all_eq_true.1 rfl)
  have hstart : Counter.StartsFrom ((Store.ofStart paddedStart).content? .hits) 7 := .denoted hdenotes
  have hcounts : ∀ c ∈ upAndDown, c.OnlyCounts .hits := by decide
  have hfits : SumsFit 7 (deltasOn .hits upAndDown) := .of_lt (by decide)
  obtain ⟨hincrements, hreadings, horder⟩ := no_increment_lost Slot.lawful_whole .hits 7 upAndDown
    (Run.start (Store.ofStart paddedStart)) hstart hcounts hfits
  have hzero : Numeral.text (7 + (deltasOn .hits upAndDown).sum) = "0" := by cbv
  have hlast : Store.content? .hits (afterTurns (Store.commands Slot.whole upAndDown)
      (Run.start (Store.ofStart paddedStart))).world = some "0" := by
    rw [← hzero]
    exact (hreadings upAndDown [] (List.append_nil _).symm).1 (by decide)
  refine ⟨⟨hstart, hcounts, hfits⟩, hincrements _ _ _ rfl, hlast, ?_⟩
  rw [← hlast]
  exact horder downAndUp (Run.start (Store.ofStart paddedStart)) hstart (by decide) (.of_lt (by decide))
    (by decide) (by decide)

end CasStore
