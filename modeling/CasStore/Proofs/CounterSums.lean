import CasStore.Proofs.Clients
import CasStore.Proofs.CounterTexts
import Mathlib.Data.List.TakeWhile

/-!
# What increments come to

An increment answers with a sum and leaves its text under the key, and a reading of the counter after it
answers with that sum again.  In memory it is the sum of the counter and the difference, whatever their
size.  A script adds numbers of 53 bits, and what it makes of the sum is written as an integer of 64
bits; so it comes to the sum where nothing has to be rounded, and may come to another number elsewhere.

    an increment in memory comes to n + delta                        (Store.countsTo)
    an increment by a script comes to the sum as scripts have it     (Site.countsTo)
    numbers up to 2 ^ 53 are not rounded                             (Rounded.ofInt_eq_finite_of_le)
    nothing rounded, both come to n + delta                          (increments_exact)
    an increment of 2 ^ 53 by 1 is lost by a script                  (increment_lost)
-/

namespace CasStore

open Text

variable {σ : Type}

/-! ## Algorithm -/

/-- The number that a counter goes on from: 0 where nothing is stored yet, else the value of its
content. -/
inductive CountsFrom : Option String → Int → Prop
  | absent : CountsFrom none 0
  | stored {content n} (h : Counter.read content = .ok n) : CountsFrom (some content) n

/-- In the run `s` an increment of `k` by `delta` comes to `i`: it answers with `i` and leaves the text of
`i` as the content of `k`, and a reading of the counter after it answers with `i`. -/
structure Backend.CountsTo (b : Backend σ) (content : σ → Option String) (k : Key) (delta : Int)
    (s : Run σ) (i : Int) : Prop where
  answer : (b.turn (.increment k delta) s).Answers (.int i)
  stored : content (b.turn (.increment k delta) s).after.world = some (Numeral.text i)
  read : (b.turn (.getCounter k) (b.turn (.increment k delta) s).after).Answers (.int i)

/-- The content of the document under a name. -/
def Keyspace.content? (name : String) (ks : Keyspace) : Option String :=
  match ks.find? name with
  | some (.document d) => some d.content
  | _ => none

/-- The content stored under a key of a session's bucket. -/
def Site.content? (session : Session) (k : Key) (w : Site) : Option String :=
  w.server.content? (session.qualified k.value)

/-- Under the names of a request there are no entries of the other kind than its script expects. -/
structure Request.Fits (r : Request) (ks : Keyspace) : Prop where
  document : ∀ n, ks.find? r.document ≠ some (.sequence n)
  sequence : ∀ d, ks.find? r.sequence ≠ some (.document d)

/-- The sum that a script makes of a content and a difference. -/
def Script.sum (content : Option String) (delta : Int) : Rounded :=
  match content with
  | none => .ofInt delta
  | some text => (Rounded.ofInt (wholeNumber (octets text))).add (.ofInt delta)

/-- Rounding leaves the number as it is. -/
def Rounded.Unrounded (i : Int) : Prop := ofInt i = .finite i

instance (i : Int) : Decidable (Rounded.Unrounded i) := inferInstanceAs (Decidable (_ = _))

/-! ## Lemmas -/

/-! ### Reading back -/

theorem Counter.read_text {i : Int} (h : (Numeral.natDigits i.natAbs).length ≤ Numeral.maxDigits) :
    Counter.read (Numeral.text i) = .ok i := by
  have hdigit := Numeral.natDigits_isDigit i.natAbs
  have hblank : (Numeral.digits i).dropWhile isAsciiBlank = Numeral.digits i :=
    Numeral.dropWhile_digits_of (fun c hc => isAsciiBlank_of_isNumberBlank (isNumberBlank_of_isDigit hc))
      rfl i
  have htake := List.takeWhile_eq_self_iff.2 hdigit
  have hdrop := List.dropWhile_eq_nil_iff.2 hdigit
  have hparts : parts? (Numeral.text i).toList = some (decide (i < 0), Numeral.natDigits i.natAbs) := by
    have hne := Numeral.natDigits_ne_nil i.natAbs
    unfold parts? Numeral.text
    simp only [String.toList_ofList, hblank, Numeral.splitSign_digits, htake, hdrop]
    simp [hne]
  unfold read
  simp only [hparts, if_pos h, signed, Numeral.value_natDigits, decide_eq_true_eq]
  congr 1
  split <;> omega

/-- A content that is read as a counter is taken for one by scripts, with the same value. -/
theorem Script.counter_of_read {content : String} {n : Int} (h : Counter.read content = .ok n) :
    counterPattern.accepts (octets content) = true ∧ wholeNumber (octets content) = n := by
  unfold Counter.read at h
  cases hparts : Counter.parts? content.toList with
  | none => rw [hparts] at h; cases h
  | some parts =>
    obtain ⟨negative, ds⟩ := parts
    simp only [hparts] at h
    split at h
    · cases h
      exact ⟨by rw [accepts_octets, hparts]; rfl, wholeNumber_octets hparts⟩
    · cases h

/-! ### Sums -/

/-- Where nothing has to be rounded and the sum has no more than 64 bits, scripts add up rightly. -/
theorem Script.toWord_sum {content : Option String} {n delta : Int} (h : CountsFrom content n)
    (hn : Rounded.Unrounded n) (hdelta : Rounded.Unrounded delta) (hsum : Rounded.Unrounded (n + delta))
    (hleast : Rounded.leastWord ≤ n + delta) (hgreatest : n + delta < -Rounded.leastWord) :
    (sum content delta).toWord = n + delta := by
  cases h with
  | absent =>
    rw [Int.zero_add] at hleast hgreatest ⊢
    rw [sum, hdelta, Rounded.toWord_finite hleast hgreatest]
  | stored h =>
    rw [sum, (counter_of_read h).2, hn, hdelta, Rounded.add, hsum, Rounded.toWord_finite hleast hgreatest]

theorem Backend.CountsTo.unique {b : Backend σ} {content : σ → Option String} {k : Key} {delta : Int}
    {s : Run σ} {i j : Int} (hi : b.CountsTo content k delta s i) (hj : b.CountsTo content k delta s j) :
    i = j := by
  have h := hi.answer.symm.trans hj.answer
  cases h
  rfl

/-! ### In memory -/

namespace Store

variable {s : Store} {k : Key} {n delta i : Int}

theorem apply_increment (h : CountsFrom (s.content? k) n) :
    s.apply (.increment k delta) = s.writeCounter k (n + delta) := by
  unfold content? at h
  cases hfind : s.docs.find? k with
  | none =>
    rw [hfind] at h
    cases h
    simp only [apply, hfind, Int.zero_add]
  | some d =>
    rw [hfind] at h
    cases h with
    | stored hread => simp only [apply, hfind, readCounter, hread]

theorem writeCounter_eq (hi : (Numeral.natDigits i.natAbs).length ≤ Numeral.maxDigits) :
    s.writeCounter k i = .ok (.counter i, (s.write k (Numeral.text i)).2) := by
  have hwrite : Numeral.write i = .ok (Numeral.text i) := if_pos hi
  rw [writeCounter, hwrite]

theorem apply_getCounter (h : s.content? k = some (Numeral.text i))
    (hi : (Numeral.natDigits i.natAbs).length ≤ Numeral.maxDigits) :
    s.apply (.getCounter k) = .ok (.counter i, s) := by
  obtain ⟨d, hfind, hcontent⟩ := Option.map_eq_some_iff.1 h
  simp only [apply, hfind, readCounter, hcontent, Counter.read_text hi]

/-- In memory an increment comes to the sum, if that can be written. -/
theorem countsTo {slot : Slot σ Store} (hslot : slot.Lawful) {r : Run σ}
    (h : CountsFrom ((slot.get r.world).content? k) n)
    (hsum : (Numeral.natDigits (n + delta).natAbs).length ≤ Numeral.maxDigits) :
    (backend slot).CountsTo (fun w => (slot.get w).content? k) k delta r (n + delta) := by
  have happly : (slot.get r.world).apply (.increment k delta) = _ :=
    (apply_increment h).trans (writeCounter_eq hsum)
  have hstored : (slot.get ((backend slot).turn (.increment k delta) r).after.world).content? k =
      some (Numeral.text (n + delta)) := by
    rw [get_turn hslot, afterCommand, happly]
    exact content?_write _
  refine ⟨?_, hstored, ?_⟩
  · rw [Turn.Answers, answer_turn, answered, happly]
    rfl
  · rw [Turn.Answers, answer_turn, answered, apply_getCounter hstored hsum]
    rfl

end Store

/-! ### By a script -/

namespace Script

variable {r : Request} {ks : Keyspace}

/-- A write puts its content under its name, if no entry of the other kind is in the way. -/
theorem write_of_fits (hr : r.Fits ks) (hne : r.document ≠ r.sequence) (content : String) :
    ∃ version ks', write r content ks = .ok version ks' ∧
      ks'.content? r.document = some content := by
  have hnext : ∃ n, Server.next r.sequence ks = .ok n (ks.insert r.sequence (.sequence n)) := by
    rw [Server.next_eq]
    match hfind : ks.find? r.sequence with
    | none => exact ⟨1, rfl⟩
    | some (.sequence n) => exact ⟨n + 1, rfl⟩
    | some (.document d) => exact absurd hfind (hr.sequence d)
  obtain ⟨n, hnext⟩ := hnext
  have hkind : ∀ m, (ks.insert r.sequence (.sequence n)).find? r.document ≠ some (.sequence m) := by
    intro m
    rw [Table.find?_insert, if_neg hne]
    exact hr.document m
  let d : Document := ⟨content, ⟨Rounded.word n⟩⟩
  have hput := put_eq (d := d) hkind
  refine ⟨Rounded.word n, (ks.insert r.sequence (.sequence n)).insert r.document (.document d), ?_, ?_⟩
  · exact (bind_of_ok hnext).trans (bind_of_ok hput)
  · rw [Keyspace.content?, Table.find?_insert, if_pos rfl]

theorem writeNumber_of_fits (hr : r.Fits ks) (hne : r.document ≠ r.sequence) (x : Rounded) :
    ∃ ks', writeNumber r x ks = .ok (.list [.int 1, .text (Numeral.text x.toWord)]) ks' ∧
      ks'.content? r.document = some (Numeral.text x.toWord) := by
  obtain ⟨version, ks', hwrite, hcontent⟩ := write_of_fits hr hne (Numeral.text x.toWord)
  exact ⟨ks', bind_of_ok hwrite, hcontent⟩

/-- The script of an increment writes the sum. -/
theorem run_increment {k : Key} {n delta : Int} (hc : r.command = .increment k delta) (hr : r.Fits ks)
    (h : CountsFrom (ks.content? r.document) n) :
    run r ks = writeNumber r (sum (ks.content? r.document) delta) ks := by
  unfold Keyspace.content? at h ⊢
  cases hfind : ks.find? r.document with
  | none =>
    have hdocument := Server.document?_eq r.document ks
    rw [hfind] at hdocument
    simp only [run, hc]
    exact bind_of_ok hdocument
  | some e =>
    cases e with
    | sequence m => exact absurd hfind (hr.document m)
    | document d =>
      rw [hfind] at h
      cases h with
      | stored hread => rw [run_increment_stored hc hfind, if_pos (counter_of_read hread).1]; rfl

/-- The script that reads a counter replies with the content. -/
theorem run_getCounter {k : Key} {content : String} (hc : r.command = .getCounter k)
    (h : ks.content? r.document = some content) : run r ks = .ok (.text content) ks := by
  have hdocument := Server.document?_eq r.document ks
  simp only [run, hc]
  unfold Keyspace.content? at h
  cases hfind : ks.find? r.document with
  | none => rw [hfind] at h; cases h
  | some e =>
    cases e with
    | sequence m => rw [hfind] at h; cases h
    | document d =>
      rw [hfind] at hdocument h
      cases h
      exact bind_of_ok hdocument

end Script

theorem Delivery.outcome_counted (k : Key) {i : Int}
    (h : (Numeral.natDigits i.natAbs).length ≤ Numeral.maxDigits) :
    (reply (.text (Numeral.text i))).outcome (.getCounter k) = .ok (.inl (.ok (.int i))) := by
  show Wire.settled (.getCounter k) (.text (Numeral.text i)) = _
  simp only [Wire.settled, Wire.result, Wire.counter, Counter.read_text h]

theorem Command.obstacle?_increment {k : Key} {delta : Int}
    (h : (Numeral.natDigits delta.natAbs).length ≤ Numeral.maxDigits) :
    (Command.increment k delta).obstacle? = none := by
  have hwrite : Numeral.write delta = .ok (Numeral.text delta) := if_pos h
  simp only [obstacle?, Request.obstacle?, Request.arguments, List.findSome?_cons, List.findSome?_nil,
    hwrite]

/-- In a bucket that only its own sessions have written to, every request about a key fits. -/
theorem Keyspace.Shows.fits {ks : Keyspace} {session : Session} {v : View} {c : Command}
    (h : ks.Shows session.bucket v) (hc : c.IsFree) : (session.request c).Fits ks where
  document n hn := by
    have hkey := (h.find?_key hc).symm.trans hn
    cases hd : v.doc? c.key with
    | none => rw [hd] at hkey; cases hkey
    | some d => rw [hd] at hkey; cases hkey
  sequence d hd := by
    have hlast := h.find?_sequence.symm.trans hd
    split at hlast
    · cases hlast
    · cases hlast

/-- By a script an increment comes to the sum as scripts have it. -/
theorem Site.countsTo {s : Run Site} {settings : Settings} {i : Nat} {session : Session} {k : Key}
    {n delta : Int} (hlive : (s.world.links i).live = some session)
    (hk : k.value ≠ Session.versionSequence)
    (hfits : (session.request (.increment k delta)).Fits s.world.server)
    (hdelta : (Numeral.natDigits delta.natAbs).length ≤ Numeral.maxDigits)
    (h : CountsFrom (s.world.content? session k) n) :
    (client settings i).backend.CountsTo (Site.content? session k) k delta s
      (Script.sum (s.world.content? session k) delta).toWord := by
  let x := Script.sum (s.world.content? session k) delta
  have hne : session.qualified k.value ≠ session.qualified Session.versionSequence :=
    fun heq => hk (Session.qualified_injective heq)
  have hshort : x.toWord.natAbs < 10 ^ 20 := Rounded.natAbs_toWord_lt _
  -- the increment
  obtain ⟨ks, hwrite, hcontent⟩ := Script.writeNumber_of_fits hfits hne x
  have hrun := (Script.run_increment rfl hfits h).trans hwrite
  have hsent : (session.request (.increment k delta)).obstacle? = none :=
    (obstacle?_request ..).trans (Command.obstacle?_increment hdelta)
  have hanswer := answer_of_ok hsent hrun
  obtain ⟨hturn, hworld⟩ := @turn_live s settings i (.increment k delta) session hlive
  rw [hanswer] at hturn hworld
  -- the reading after it
  let t := ((client settings i).backend.turn (.increment k delta) s).after
  have hread : t.world.server.answer (session.request (.getCounter k)) =
      (.reply (.text (Numeral.text x.toWord)), ks) := by
    rw [hworld]
    exact answer_of_ok rfl (Script.run_getCounter rfl hcontent)
  obtain ⟨hturn', -⟩ := @turn_live t settings i (.getCounter k) session (by rw [hworld]; exact hlive)
  rw [hread] at hturn'
  refine ⟨hturn.trans (Delivery.outcome_increased k delta hshort), ?_, hturn'.trans ?_⟩
  · rw [hworld]
    exact hcontent
  · exact Delivery.outcome_counted k (Numeral.natDigits_length_le_maxDigits hshort)

/-! ## Top theorems -/

/-- An increment comes to the sum in memory, and to the sum as scripts have it on a server.  They are one
number as long as neither the counter nor the difference nor the sum has to be rounded. -/
theorem increments_exact {slot : Slot σ Store} (hslot : slot.Lawful) (m : Run σ) (s : Run Site)
    (settings : Settings) (i : Nat) (session : Session) (k : Key) (n delta : Int)
    (hlive : (s.world.links i).live = some session) (hk : k.value ≠ Session.versionSequence)
    (hfits : (session.request (.increment k delta)).Fits s.world.server)
    (hsame : (slot.get m.world).content? k = s.world.content? session k)
    (hcount : CountsFrom (s.world.content? session k) n)
    (hdelta : (Numeral.natDigits delta.natAbs).length ≤ Numeral.maxDigits)
    (hsum : (Numeral.natDigits (n + delta).natAbs).length ≤ Numeral.maxDigits) :
    (Store.backend slot).CountsTo (fun w => (slot.get w).content? k) k delta m (n + delta) ∧
    (Site.client settings i).backend.CountsTo (Site.content? session k) k delta s
      (Script.sum (s.world.content? session k) delta).toWord ∧
    (Rounded.Unrounded n → Rounded.Unrounded delta → Rounded.Unrounded (n + delta) →
      Rounded.leastWord ≤ n + delta → n + delta < -Rounded.leastWord →
      (Site.client settings i).backend.CountsTo (Site.content? session k) k delta s (n + delta)) := by
  have hscript := @Site.countsTo s settings i session k n delta hlive hk hfits hdelta hcount
  refine ⟨Store.countsTo hslot (by rw [hsame]; exact hcount) hsum, hscript, ?_⟩
  intro hn hd hnd hleast hgreatest
  rw [Script.toWord_sum hcount hn hd hnd hleast hgreatest] at hscript
  exact hscript

/-- The session of the clients of a new site. -/
def countingSession : Session := ⟨0, "default"⟩

/-- The site on which a client has stored one document. -/
def countingSite (content : String) : Run Site :=
  ((Site.client Settings.default 0).backend.turn (.create .a content)
    (Run.start (Site.opened "default" .empty))).after

/-- The same document in memory. -/
def countingStore (content : String) : Run Store :=
  Run.start ⟨.insert .empty .a ⟨content, ⟨1⟩⟩, 1⟩

theorem fits_countingSite (content : String) (delta : Int) :
    (countingSession.request (.increment .a delta)).Fits (countingSite content).world.server := by
  have hconn : (Run.start (Site.opened "default" .empty)).world.Connected "default" :=
    fun _ => ⟨countingSession, rfl, rfl⟩
  have hfree : Key.a.value ≠ Session.versionSequence := by decide
  obtain ⟨v, hv, -⟩ := @Site.shows_turn _ _ Settings.default 0 (.create .a content) _ hconn
    (Keyspace.shows_empty fun _ => rfl) hfree
  exact hv.fits hfree

/-- Below `2 ^ 53` a server adds up as memory does. -/
theorem short_sum_exact :
    (Store.backend Slot.whole).CountsTo (Store.content? .a) .a 2 (countingStore "9007199254740990")
      9007199254740992 ∧
    (Site.client Settings.default 0).backend.CountsTo (Site.content? countingSession .a) .a 2
      (countingSite "9007199254740990") 9007199254740992 := by
  have hread : Counter.read "9007199254740990" = .ok 9007199254740990 := rfl
  obtain ⟨hmemory, -, hserver⟩ := increments_exact Slot.lawful_whole
    (countingStore "9007199254740990") (countingSite "9007199254740990") Settings.default 0
    countingSession .a 9007199254740990 2 rfl (by decide) (fits_countingSite _ _) rfl (.stored hread)
    (Numeral.natDigits_length_le_maxDigits (by decide))
    (Numeral.natDigits_length_le_maxDigits (by decide))
  exact ⟨hmemory, hserver (Rounded.ofInt_eq_finite_of_le (by decide)) (Rounded.ofInt_eq_finite_of_le (by decide))
    (Rounded.ofInt_eq_finite_of_le (by decide)) (by decide) (by decide)⟩

/-- An increment of `2 ^ 53` by 1 is lost on a server: it answers with `2 ^ 53`, and that is what it
leaves.  In memory it comes to the sum. -/
theorem increment_lost :
    CountsFrom ((countingSite "9007199254740992").world.content? countingSession .a) 9007199254740992 ∧
    (Store.backend Slot.whole).CountsTo (Store.content? .a) .a 1 (countingStore "9007199254740992")
      9007199254740993 ∧
    (Site.client Settings.default 0).backend.CountsTo (Site.content? countingSession .a) .a 1
      (countingSite "9007199254740992") 9007199254740992 ∧
    ¬ (Site.client Settings.default 0).backend.CountsTo (Site.content? countingSession .a) .a 1
      (countingSite "9007199254740992") 9007199254740993 := by
  have hread : Counter.read "9007199254740992" = .ok 9007199254740992 := rfl
  have hmemory := @Store.countsTo _ .a 9007199254740992 1 _ Slot.lawful_whole
    (countingStore "9007199254740992") (.stored hread)
    (Numeral.natDigits_length_le_maxDigits (by decide))
  have hserver := @Site.countsTo (countingSite "9007199254740992") Settings.default 0 countingSession .a
    9007199254740992 1 rfl (by decide) (fits_countingSite _ _)
    (Numeral.natDigits_length_le_maxDigits (by decide)) (.stored hread)
  have hsum : (Script.sum (some "9007199254740992") 1).toWord = 9007199254740992 := by
    rw [Script.sum, (Script.counter_of_read hread).2]
    decide +kernel
  have hlost := hsum ▸ hserver
  exact ⟨.stored hread, hmemory, hlost, fun h => absurd (hlost.unique h) (by decide)⟩

end CasStore
