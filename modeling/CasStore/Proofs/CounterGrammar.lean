import CasStore.Network.Wire
import CasStore.Proofs.CounterTexts
import CasStore.Store

/-!
# One grammar of counters

What is a counter is said three times: by a pattern over characters, by the pattern of the script over
octets, and by the parts that a text can be put together of.  All three say the same, and the value of a
text is that of its digits, with its sign, wherever it is read.

    a spelling is read as its value, if it is not too long           (read_spelling)
    the script takes it for its value, however long it is            (takenFor_text)
    of any other text both sides say that it is no counter           (refused_of_not_spelled)
    all of it together, with what the two patterns accept            (counter_grammars_agree)
-/

namespace CasStore

open Text

/-! ## Algorithm -/

namespace Counter

/-- The text is read as the counter `i`, from a reply and in memory. -/
structure ReadAs (s : String) (i : Int) : Prop where
  reply : ∀ k, Wire.counter k (.text s) = .ok (.ok (.int i))
  store : Store.readCounter s = .ok i

/-- The script of an increment takes the text for the number `i`, which is not rounded if it is short, and
writes a sum. -/
structure TakenFor (s : String) (i : Int) : Prop where
  number : Script.wholeNumber (Script.octets s) = i
  short : i.natAbs < 2 ^ 53 → Rounded.ofInt (Script.wholeNumber (Script.octets s)) = .finite i
  sum : ∀ r k delta ks d, r.command = .increment k delta → ks.find? r.document = some (.document d) →
    d.content = s → Script.run r ks = Script.writeNumber r ((Rounded.ofInt i).add (.ofInt delta)) ks

/-- Both sides say that the text is no counter.  The script of an increment says so by its reply, and leaves
everything as it is. -/
structure Refused (s : String) : Prop where
  reply : ∀ k, Wire.counter k (.text s) = .ok (.error (.notCounter k.value))
  store : Store.readCounter s = .error .notCounter
  script : ∀ r k delta ks d, r.command = .increment k delta → ks.find? r.document = some (.document d) →
    d.content = s → Script.run r ks = .ok (.list [.int 0, .text s]) ks
  result : ∀ k delta, Wire.result (.list [.int 0, .text s]) (.increment k delta) =
    .ok (.error ((Fault.notCounter k.value).within [("command", .text "increment_counter")]))

end Counter

/-! ## Lemmas -/

namespace Counter

theorem read_spelling (p : Spelling) : read p.text =
    if p.digits.length ≤ Numeral.maxDigits then .ok p.value else .error (.tooLong p.digits.length) := by
  unfold read
  rw [parts?_text]
  rfl

theorem read_of_not_spelled {s : String} (h : ¬ ∃ p : Spelling, p.text = s) :
    read s = .error .notCounter := by
  rw [read_eq_notCounter_iff, ← Option.not_isSome_iff_eq_none]
  exact fun hparts => h (isSome_parts?_iff_spelled.1 hparts)

theorem readAs_text {p : Spelling} (h : p.digits.length ≤ Numeral.maxDigits) : ReadAs p.text p.value := by
  have hread := read_spelling p
  rw [if_pos h] at hread
  constructor
  · intro k
    unfold Wire.counter
    simp only [hread]
  · unfold Store.readCounter
    simp only [hread]

theorem takenFor_text (p : Spelling) : TakenFor p.text p.value where
  number := Script.wholeNumber_text p
  short h := by rw [Script.wholeNumber_text, Rounded.ofInt_eq_finite h]
  sum r k delta ks d hc hfind hd := by
    rw [Script.run_increment_stored hc hfind, hd, if_pos (Script.accepts_iff_spelled.2 ⟨p, rfl⟩),
      Script.wholeNumber_text]

theorem refused_of_not_spelled {s : String} (h : ¬ ∃ p : Spelling, p.text = s) : Refused s where
  reply k := by
    unfold Wire.counter
    simp only [read_of_not_spelled h]
  store := by
    unfold Store.readCounter
    simp only [read_of_not_spelled h]
  script r k delta ks d hc hfind hd := by
    rw [Script.run_increment_stored hc hfind, hd, if_neg (mt Script.accepts_iff_spelled.1 h)]
  result k delta := rfl

/-- A text that is too long is neither read nor said to be no counter. -/
theorem counter_of_overlong {p : Spelling} (h : Numeral.maxDigits < p.digits.length) (k : Key) :
    Wire.counter k (.text p.text) = .error (.ofNumeral (.tooLong p.digits.length)) := by
  have hread := read_spelling p
  rw [if_neg (Nat.not_le.2 h)] at hread
  unfold Wire.counter
  simp only [hread]

end Counter

/-! ## Top theorems -/

/-- Both patterns accept the spellings of counters and nothing else.  A spelling of no more than `maxDigits`
digits is read as its value, and a longer one is refused by the reading as too long; the script takes either
for its value.  Of any text that is not spelled so both sides say that it is no counter. -/
theorem counter_grammars_agree (s : String) :
    (Pattern.accepts Counter.pattern s.toList = true ↔ ∃ p : Counter.Spelling, p.text = s) ∧
    (Script.counterPattern.accepts (Script.octets s) = true ↔ ∃ p : Counter.Spelling, p.text = s) ∧
    (∀ p : Counter.Spelling, p.text = s → p.digits.length ≤ Numeral.maxDigits → Counter.ReadAs s p.value) ∧
    (∀ p : Counter.Spelling, p.text = s → Numeral.maxDigits < p.digits.length → ∀ k,
      Wire.counter k (.text s) = .error (.ofNumeral (.tooLong p.digits.length))) ∧
    (∀ p : Counter.Spelling, p.text = s → Counter.TakenFor s p.value) ∧
    ((¬ ∃ p : Counter.Spelling, p.text = s) → Counter.Refused s) := by
  refine ⟨Counter.accepts_iff_spelled, Script.accepts_iff_spelled, ?_, ?_, ?_, Counter.refused_of_not_spelled⟩
  · rintro p rfl hshort
    exact Counter.readAs_text hshort
  · rintro p rfl hlong k
    exact Counter.counter_of_overlong hlong k
  · rintro p rfl
    exact Counter.takenFor_text p

namespace Counter.Spelling

/-- A spelling with blanks, a sign and zeros in front. -/
def padded : Spelling where
  before := [' ', '\t']
  sign := ['-']
  digits := ['0', '0', '7']
  after := ['\n']
  before_blank := by decide
  single_sign := by decide
  some_digit := by decide
  digits_ascii := by decide
  after_blank := by decide

/-- A row of ones. -/
def ones (n : Nat) : Spelling where
  before := []
  sign := []
  digits := List.replicate (n + 1) '1'
  after := []
  before_blank := by decide
  single_sign := by decide
  some_digit := by rw [List.replicate_succ]; exact List.cons_ne_nil _ _
  digits_ascii := fun c hc => by rw [List.eq_of_mem_replicate hc]; decide
  after_blank := by decide

end Counter.Spelling

/-- Padding does not matter, but an underscore between digits does. -/
theorem padded_read : Counter.Spelling.padded.text = " \t-007\n" ∧
    Counter.Spelling.padded.digits.length ≤ Numeral.maxDigits ∧
    Counter.ReadAs " \t-007\n" (-7) ∧ Counter.TakenFor " \t-007\n" (-7) ∧
    (¬ ∃ p : Counter.Spelling, p.text = "1_000") ∧ Counter.Refused "1_000" := by
  have htext : Counter.Spelling.padded.text = " \t-007\n" := by decide
  have hshort : Counter.Spelling.padded.digits.length ≤ Numeral.maxDigits := by decide
  obtain ⟨-, -, hread, -, htaken, -⟩ := counter_grammars_agree " \t-007\n"
  obtain ⟨haccepts, -, -, -, -, hrefused⟩ := counter_grammars_agree "1_000"
  have hnot : ¬ ∃ p : Counter.Spelling, p.text = "1_000" := fun h => absurd (haccepts.2 h) (by decide)
  exact ⟨htext, hshort, hread .padded htext hshort, htaken .padded htext, hnot, hrefused hnot⟩

/-- A counter text of 4301 digits is none of those that are read, and neither side says that it is no
counter: the reading fails, and the script goes on with its value. -/
theorem overlong_not_refused :
    (¬ ∃ p : Counter.Spelling, p.text = (Counter.Spelling.ones 4300).text ∧
      p.digits.length ≤ Numeral.maxDigits) ∧
    (∀ k, Wire.counter k (.text (Counter.Spelling.ones 4300).text) = .error (.ofNumeral (.tooLong 4301))) ∧
    Script.counterPattern.accepts (Script.octets (Counter.Spelling.ones 4300).text) = true ∧
    ¬ Counter.Refused (Counter.Spelling.ones 4300).text := by
  have hdigits : (Counter.Spelling.ones 4300).digits.length = 4301 := List.length_replicate
  have hlong : Numeral.maxDigits < (Counter.Spelling.ones 4300).digits.length := by
    rw [hdigits]
    decide
  have hreading : ∀ k, Wire.counter k (.text (Counter.Spelling.ones 4300).text) =
      .error (.ofNumeral (.tooLong 4301)) := by
    intro k
    rw [Counter.counter_of_overlong hlong, hdigits]
  refine ⟨?_, hreading, Script.accepts_iff_spelled.2 ⟨_, rfl⟩, ?_⟩
  · rintro ⟨p, htext, hshort⟩
    rw [← Counter.digits_of_text_eq htext] at hlong
    omega
  · intro hrefused
    have hrefusal := (hreading ⟨"k", by decide⟩).symm.trans (hrefused.reply ⟨"k", by decide⟩)
    cases hrefusal

end CasStore
