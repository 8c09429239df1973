import CasStore.Counter
import CasStore.Proofs.Numerals
import CasStore.Server.Script

/-!
# Counter texts on both sides

A document's content is read as a counter from its characters, and by the server from its octets.  Both
take the same contents for counters, of whatever script the other characters are, and read the same
value: a content is a counter when it can be spelled as one, and its spelling says the value.

    octets and characters of the same classes match alike            (accepts_encoded)
    the patterns accept the spellings and nothing else               (accepts_iff_spelled)
    the pattern accepts the octets of s ↔ s is a counter text        (accepts_octets)
    wholeNumber (octets s) = the value of s                          (wholeNumber_octets)
-/

namespace CasStore

open Text

/-! ## Algorithm -/

/-- The octets of a row of characters. -/
def encoded (cs : List Char) : List UInt8 := cs.flatMap String.utf8EncodeChar

/-- The two classes hold of the same ASCII characters, and of no others. -/
structure SameClass (q : UInt8 → Bool) (p : Char → Bool) : Prop where
  ascii : ∀ n < 128, q (UInt8.ofNat n) = p (Char.ofNat n)
  noOctet : ∀ b, 128 ≤ b.toNat → q b = false
  noCharacter : ∀ c, 128 ≤ c.toNat → p c = false

/-- The two parts have the same class and the same repetitions. -/
structure SamePart (q : Text.Part UInt8) (p : Text.Part Char) : Prop where
  sameClass : SameClass q.holds p.holds
  repetition : q.repetition = p.repetition

/-- Plus or minus. -/
def isSign (c : Char) : Bool := c == '+' || c == '-'

namespace Counter

/-- Blanks, at most one sign, at least one digit, blanks. -/
def pattern : Pattern Char :=
  [⟨isAsciiBlank, .many⟩, ⟨isSign, .optional⟩, ⟨Char.isDigit, .some⟩, ⟨isAsciiBlank, .many⟩]

/-- The parts of the script's pattern, each with that of the pattern over characters. -/
def parts : List (Text.Part UInt8 × Text.Part Char) := Script.counterPattern.zip pattern

/-- Space, tab, line feed, carriage return, form feed and vertical tab. -/
def blanks : List Char := [' ', '\t', '\n', '\r', Char.ofNat 12, Char.ofNat 11]

/-- The ASCII digits. -/
def asciiDigits : List Char := ['0', '1', '2', '3', '4', '5', '6', '7', '8', '9']

/-- A counter text, part by part. -/
structure Spelling where
  before : List Char
  sign : List Char
  digits : List Char
  after : List Char
  before_blank : before ⊆ blanks
  single_sign : sign ∈ [[], ['+'], ['-']]
  some_digit : digits ≠ []
  digits_ascii : digits ⊆ asciiDigits
  after_blank : after ⊆ blanks

namespace Spelling

/-- The text that is spelled. -/
def text (p : Spelling) : String := String.ofList (p.before ++ (p.sign ++ (p.digits ++ p.after)))

/-- The value of the digits, with the sign. -/
def value (p : Spelling) : Int := signed (p.sign = ['-']) (Numeral.value p.digits)

end Spelling

end Counter

/-! ## Lemmas -/

/-! ### Octets -/

theorem octets_eq_encoded (s : String) : Script.octets s = encoded s.toList := by
  unfold Script.octets
  rw [String.toUTF8_eq_toByteArray, ← String.utf8Encode_toList, List.utf8Encode,
    List.toList_data_toByteArray]
  rfl

theorem encoded_cons (c : Char) (cs : List Char) :
    encoded (c :: cs) = String.utf8EncodeChar c ++ encoded cs :=
  List.flatMap_cons

theorem utf8EncodeChar_of_lt {c : Char} (h : c.toNat < 128) :
    String.utf8EncodeChar c = [UInt8.ofNat c.toNat] := by
  unfold String.utf8EncodeChar
  exact if_pos (by have : c.toNat = c.val.toNat := rfl; omega)

/-- Characters outside ASCII have octets outside ASCII. -/
theorem utf8EncodeChar_of_ge {c : Char} (h : 128 ≤ c.toNat) :
    ∃ b bs, String.utf8EncodeChar c = b :: bs ∧ 128 ≤ b.toNat := by
  have hv : 128 ≤ c.val.toNat := h
  unfold String.utf8EncodeChar
  simp only
  split
  · omega
  · split
    · refine ⟨_, _, rfl, ?_⟩
      simp only [UInt8.toNat_ofNat']
      omega
    · split
      · refine ⟨_, _, rfl, ?_⟩
        simp only [UInt8.toNat_ofNat']
        omega
      · refine ⟨_, _, rfl, ?_⟩
        simp only [UInt8.toNat_ofNat']
        omega

namespace SameClass

variable {q : UInt8 → Bool} {p : Char → Bool}

theorem lt_of_holds (h : SameClass q p) {c : Char} (hc : p c = true) : c.toNat < 128 := by
  by_cases hlt : c.toNat < 128
  · exact hlt
  · have := h.noCharacter c (by omega)
    rw [hc] at this
    cases this

theorem octet (h : SameClass q p) {c : Char} (hlt : c.toNat < 128) :
    q (UInt8.ofNat c.toNat) = p c := by
  have := h.ascii c.toNat hlt
  rwa [Char.ofNat_toNat] at this

/-- The first octet of a character is in the class where the character is. -/
theorem head (h : SameClass q p) (c : Char) :
    ∃ b bs, String.utf8EncodeChar c = b :: bs ∧ q b = p c ∧ (p c = true → bs = []) := by
  by_cases hlt : c.toNat < 128
  · exact ⟨_, _, utf8EncodeChar_of_lt hlt, h.octet hlt, fun _ => rfl⟩
  · obtain ⟨b, bs, heq, hb⟩ := utf8EncodeChar_of_ge (c := c) (by omega)
    have hc := h.noCharacter c (by omega)
    refine ⟨b, bs, heq, by rw [h.noOctet b hb, hc], ?_⟩
    intro h'
    rw [hc] at h'
    cases h'

theorem dropWhile_encoded (h : SameClass q p) (cs : List Char) :
    (encoded cs).dropWhile q = encoded (cs.dropWhile p) := by
  induction cs with
  | nil => rfl
  | cons c cs ih =>
    obtain ⟨b, bs, heq, hb, hone⟩ := h.head c
    rw [encoded_cons, heq, List.cons_append, List.dropWhile_cons, List.dropWhile_cons, hb]
    split
    · next hc => rw [hone hc, List.nil_append, ih]
    · rw [encoded_cons, heq, List.cons_append]

theorem takeWhile_encoded (h : SameClass q p) (cs : List Char) :
    (encoded cs).takeWhile q = encoded (cs.takeWhile p) := by
  induction cs with
  | nil => rfl
  | cons c cs ih =>
    obtain ⟨b, bs, heq, hb, hone⟩ := h.head c
    rw [encoded_cons, heq, List.cons_append, List.takeWhile_cons, List.takeWhile_cons, hb]
    split
    · next hc => rw [encoded_cons, heq, hone hc, List.nil_append, ih]; rfl
    · rfl

/-- Octets of a class at the front are characters of the class at the front. -/
theorem exists_front (h : SameClass q p) {piece rest : List UInt8} {cs : List Char}
    (heq : encoded cs = piece ++ rest) (hpiece : ∀ b ∈ piece, q b = true) :
    ∃ front back, cs = front ++ back ∧ encoded back = rest ∧ front.length = piece.length ∧
      ∀ c ∈ front, p c = true := by
  induction piece generalizing cs with
  | nil => exact ⟨[], cs, rfl, heq, rfl, fun c hc => absurd hc List.not_mem_nil⟩
  | cons b piece ih =>
    obtain ⟨hb, hrest⟩ := List.forall_mem_cons.1 hpiece
    cases cs with
    | nil => cases heq
    | cons c cs =>
      obtain ⟨b', bs, hc, hsame, hone⟩ := h.head c
      rw [encoded_cons, hc, List.cons_append, List.cons_append] at heq
      obtain ⟨rfl, htail⟩ := List.cons.inj heq
      have hholds : p c = true := hsame ▸ hb
      rw [hone hholds, List.nil_append] at htail
      obtain ⟨front, back, rfl, hback, hlength, hfront⟩ := ih htail hrest
      exact ⟨c :: front, back, rfl, hback, congrArg Nat.succ hlength, List.forall_mem_cons.2 ⟨hholds, hfront⟩⟩

/-- Characters of a class are octets of the class, one each. -/
theorem encoded_front (h : SameClass q p) {front : List Char} (hfront : ∀ c ∈ front, p c = true) :
    (encoded front).length = front.length ∧ ∀ b ∈ encoded front, q b = true := by
  induction front with
  | nil => exact ⟨rfl, fun b hb => absurd hb List.not_mem_nil⟩
  | cons c cs ih =>
    obtain ⟨hc, hcs⟩ := List.forall_mem_cons.1 hfront
    obtain ⟨b, bs, heq, hb, hone⟩ := h.head c
    obtain ⟨hlength, hall⟩ := ih hcs
    rw [encoded_cons, heq, hone hc]
    exact ⟨congrArg Nat.succ hlength, List.forall_mem_cons.2 ⟨hb.trans hc, hall⟩⟩

end SameClass

theorem isBlankByte_sameClass : SameClass Script.isBlankByte isAsciiBlank where
  ascii := by decide +kernel
  noOctet b h := by
    have hne : b ≠ 32 := by
      rintro rfl
      exact absurd h (by decide)
    have hle : ¬ b ≤ 13 := by
      rw [UInt8.le_iff_toNat_le]
      exact fun h' => by have : (13 : UInt8).toNat = 13 := rfl; omega
    simp only [Script.isBlankByte, Bool.or_eq_false_iff, Bool.and_eq_false_iff, beq_eq_false_iff_ne,
      decide_eq_false_iff_not]
    exact ⟨hne, .inr hle⟩
  noCharacter c h := by
    have hne : c ≠ ' ' := by
      rintro rfl
      exact absurd h (by decide)
    simp only [isAsciiBlank, Bool.or_eq_false_iff, Bool.and_eq_false_iff, beq_eq_false_iff_ne,
      decide_eq_false_iff_not]
    exact ⟨hne, .inr (by omega)⟩

theorem isSignByte_sameClass : SameClass Script.isSignByte isSign where
  ascii := by decide +kernel
  noOctet b h := by
    simp only [Script.isSignByte, Bool.or_eq_false_iff, beq_eq_false_iff_ne]
    constructor <;> rintro rfl <;> exact absurd h (by decide)
  noCharacter c h := by
    simp only [isSign, Bool.or_eq_false_iff, beq_eq_false_iff_ne]
    constructor <;> rintro rfl <;> exact absurd h (by decide)

theorem isDigitByte_sameClass : SameClass Script.isDigitByte Char.isDigit where
  ascii := by decide +kernel
  noOctet b h := by
    have hle : ¬ b ≤ 57 := by
      rw [UInt8.le_iff_toNat_le]
      exact fun h' => by have : (57 : UInt8).toNat = 57 := rfl; omega
    simp only [Script.isDigitByte, Bool.and_eq_false_iff, decide_eq_false_iff_not]
    exact .inr hle
  noCharacter c h := by
    refine Bool.eq_false_iff.2 fun hc => ?_
    have := (isDigit_iff.1 hc).2
    omega

theorem sameParts_counter : ∀ e ∈ Counter.parts, SamePart e.1 e.2 := by
  have hblank : SamePart ⟨Script.isBlankByte, .many⟩ ⟨isAsciiBlank, .many⟩ := ⟨isBlankByte_sameClass, rfl⟩
  have hsign : SamePart ⟨Script.isSignByte, .optional⟩ ⟨isSign, .optional⟩ := ⟨isSignByte_sameClass, rfl⟩
  have hdigit : SamePart ⟨Script.isDigitByte, .some⟩ ⟨Char.isDigit, .some⟩ := ⟨isDigitByte_sameClass, rfl⟩
  exact List.forall_mem_cons.2 ⟨hblank, List.forall_mem_cons.2 ⟨hsign, List.forall_mem_cons.2
    ⟨hdigit, List.forall_mem_cons.2 ⟨hblank, fun e he => absurd he List.not_mem_nil⟩⟩⟩⟩

/-- A pattern over octets accepts the octets of what the pattern over characters accepts. -/
theorem accepts_encoded {ps : List (Text.Part UInt8 × Text.Part Char)} (h : ∀ e ∈ ps, SamePart e.1 e.2)
    (cs : List Char) : Pattern.accepts (ps.map (·.1)) (encoded cs) = Pattern.accepts (ps.map (·.2)) cs := by
  rw [Bool.eq_iff_iff]
  induction ps generalizing cs with
  | nil =>
    cases cs with
    | nil => rfl
    | cons c cs =>
      obtain ⟨b, bs, heq, -⟩ := isSignByte_sameClass.head c
      rw [encoded_cons, heq]
      rfl
  | cons e ps ih =>
    obtain ⟨⟨hclass, hrepetition⟩, hps⟩ := List.forall_mem_cons.1 h
    rw [List.map_cons, List.map_cons, accepts_cons_iff, accepts_cons_iff]
    constructor
    · rintro ⟨piece, rest, heq, ⟨hholds, hallowed⟩, hrest⟩
      obtain ⟨front, back, rfl, rfl, hlength, hfront⟩ := hclass.exists_front heq hholds
      exact ⟨front, back, rfl, ⟨hfront, hrepetition ▸ hlength ▸ hallowed⟩, (ih hps back).1 hrest⟩
    · rintro ⟨front, back, rfl, ⟨hholds, hallowed⟩, hback⟩
      obtain ⟨hlength, hfront⟩ := hclass.encoded_front hholds
      refine ⟨encoded front, encoded back, List.flatMap_append, ⟨hfront, ?_⟩, (ih hps back).2 hback⟩
      rw [hrepetition, hlength]
      exact hallowed

/-! ### Texts put together -/

theorem Text.isAsciiBlank_of_isNumberBlank {c : Char} (h : isNumberBlank c = false) :
    isAsciiBlank c = false := by
  simp only [isNumberBlank, Bool.or_eq_false_iff] at h
  exact h.1

theorem Text.isDigit_of_isAsciiBlank {c : Char} (h : isAsciiBlank c = true) : c.isDigit = false := by
  cases hc : c.isDigit with
  | false => rfl
  | true => rw [isAsciiBlank_of_isNumberBlank (isNumberBlank_of_isDigit hc)] at h; cases h

/-- A sign is split off in front of digits. -/
theorem Numeral.splitSign_append {sign ds : List Char} (hsign : sign ∈ [[], ['+'], ['-']])
    (hne : ds ≠ []) (hdigits : ∀ c ∈ ds, c.isDigit = true) (after : List Char) :
    splitSign (sign ++ (ds ++ after)) = (decide (sign = ['-']), ds ++ after) := by
  simp only [List.mem_cons, List.not_mem_nil, or_false] at hsign
  rcases hsign with rfl | rfl | rfl
  · cases ds with
    | nil => exact absurd rfl hne
    | cons d ds =>
      have hd := hdigits d (List.mem_cons_self ..)
      unfold splitSign
      split
      · next heq => rw [(List.cons.inj heq).1] at hd; cases hd
      · next heq => rw [(List.cons.inj heq).1] at hd; cases hd
      · rfl
  · rfl
  · rfl

/-- In front of signed digits there is nothing else to drop. -/
theorem Numeral.dropWhile_append {p : Char → Bool} (hdigit : ∀ c, c.isDigit = true → p c = false)
    (hplus : p '+' = false) (hminus : p '-' = false) {sign ds : List Char}
    (hsign : sign ∈ [[], ['+'], ['-']]) (hne : ds ≠ []) (hdigits : ∀ c ∈ ds, c.isDigit = true)
    (after : List Char) : (sign ++ (ds ++ after)).dropWhile p = sign ++ (ds ++ after) := by
  simp only [List.mem_cons, List.not_mem_nil, or_false] at hsign
  rcases hsign with rfl | rfl | rfl
  · cases ds with
    | nil => exact absurd rfl hne
    | cons d ds =>
      have hd := hdigit d (hdigits d (List.mem_cons_self ..))
      exact List.dropWhile_cons_of_neg (by rw [hd]; decide)
  · exact List.dropWhile_cons_of_neg (by rw [hplus]; decide)
  · exact List.dropWhile_cons_of_neg (by rw [hminus]; decide)

/-- The parts of a text that is put together of blanks, a sign, digits and blanks. -/
theorem Counter.parts?_append {before sign ds after : List Char}
    (hbefore : ∀ c ∈ before, isAsciiBlank c = true) (hsign : sign ∈ [[], ['+'], ['-']]) (hne : ds ≠ [])
    (hdigits : ∀ c ∈ ds, c.isDigit = true) (hafter : ∀ c ∈ after, isAsciiBlank c = true) :
    parts? (before ++ (sign ++ (ds ++ after))) = some (decide (sign = ['-']), ds) := by
  have hblanks : (before ++ (sign ++ (ds ++ after))).dropWhile isAsciiBlank = sign ++ (ds ++ after) := by
    rw [List.dropWhile_append_of_pos hbefore]
    exact Numeral.dropWhile_append
      (fun c hc => isAsciiBlank_of_isNumberBlank (isNumberBlank_of_isDigit hc)) rfl rfl hsign hne hdigits
      after
  obtain ⟨htake, hdrop⟩ := digits_append hdigits fun c hc =>
    isDigit_of_isAsciiBlank (hafter c (List.mem_of_mem_head? hc))
  unfold parts?
  simp only [hblanks, Numeral.splitSign_append hsign hne hdigits, htake, hdrop,
    List.all_eq_true.2 hafter, if_true]
  rw [if_neg (by rwa [List.isEmpty_iff])]

/-- Behind a sign come the digits, and only a minus is a minus. -/
theorem Numeral.dropSign_append {sign ds : List Char} (hsign : sign ∈ [[], ['+'], ['-']]) (hne : ds ≠ [])
    (hdigits : ∀ c ∈ ds, c.isDigit = true) (after : List Char) :
    (sign ++ (ds ++ after)).dropWhile isSign = ds ++ after ∧
      ((encoded (sign ++ (ds ++ after))).head? = some 45 ↔ sign = ['-']) := by
  obtain ⟨d, ds, rfl⟩ := List.exists_cons_of_ne_nil hne
  have hd := isDigit_iff.1 (hdigits d (List.mem_cons_self ..))
  have hnot : isSign d = false := Bool.eq_false_iff.2 fun h => by
    simp only [isSign, Bool.or_eq_true, beq_iff_eq] at h
    rcases h with rfl | rfl <;> exact absurd hd.1 (by decide)
  have hdrop : (d :: ds ++ after).dropWhile isSign = d :: ds ++ after :=
    List.dropWhile_cons_of_neg (by rw [hnot]; exact Bool.false_ne_true)
  simp only [List.mem_cons, List.not_mem_nil, or_false] at hsign
  rcases hsign with rfl | rfl | rfl
  · refine ⟨hdrop, ?_⟩
    have hoctet : UInt8.ofNat d.toNat ≠ 45 := by
      intro heq
      have hnat := congrArg UInt8.toNat heq
      rw [UInt8.toNat_ofNat'] at hnat
      have : (45 : UInt8).toNat = 45 := rfl
      omega
    rw [List.nil_append, List.cons_append, encoded_cons, utf8EncodeChar_of_lt (by omega)]
    simp [hoctet]
  · have hplus : (encoded (['+'] ++ (d :: ds ++ after))).head? = some 43 := rfl
    exact ⟨hdrop, iff_of_false (by rw [hplus]; decide) (by decide)⟩
  · exact ⟨hdrop, iff_of_true rfl rfl⟩

/-! ### Spellings -/

theorem Numeral.exists_sign (cs : List Char) :
    ∃ sign ∈ [[], ['+'], ['-']], cs = sign ++ (splitSign cs).2 := by
  unfold splitSign
  split
  · exact ⟨['-'], by decide, rfl⟩
  · exact ⟨['+'], by decide, rfl⟩
  · exact ⟨[], by decide, rfl⟩

namespace Counter

theorem mem_blanks {c : Char} : c ∈ blanks ↔ isAsciiBlank c = true := by
  constructor
  · intro h
    simp only [blanks, List.mem_cons, List.not_mem_nil, or_false] at h
    rcases h with rfl | rfl | rfl | rfl | rfl | rfl <;> rfl
  · intro h
    simp only [isAsciiBlank, Bool.or_eq_true, beq_iff_eq, Bool.and_eq_true, decide_eq_true_eq] at h
    rcases h with rfl | h
    · decide
    · have hcode : c.toNat = 9 ∨ c.toNat = 10 ∨ c.toNat = 11 ∨ c.toNat = 12 ∨ c.toNat = 13 := by omega
      rw [← Char.ofNat_toNat c]
      rcases hcode with hc | hc | hc | hc | hc <;> rw [hc] <;> decide

theorem mem_asciiDigits {c : Char} : c ∈ asciiDigits ↔ c.isDigit = true := by
  constructor
  · intro h
    exact List.all_eq_true.1 (show asciiDigits.all Char.isDigit = true by decide) c h
  · intro h
    have hall : ∀ n, n < 10 → Char.ofNat (48 + n) ∈ asciiDigits := by decide
    obtain ⟨hlow, hhigh⟩ := isDigit_iff.1 h
    have hc := hall (c.toNat - 48) (by omega)
    rwa [show 48 + (c.toNat - 48) = c.toNat by omega, Char.ofNat_toNat] at hc

theorem mem_signs {sign : List Char} :
    sign ∈ [[], ['+'], ['-']] ↔ (⟨isSign, .optional⟩ : Text.Part Char).Takes sign := by
  constructor
  · intro h
    simp only [List.mem_cons, List.not_mem_nil, or_false] at h
    rcases h with rfl | rfl | rfl
    · exact ⟨List.all_eq_true.1 rfl, Nat.zero_le 1⟩
    · exact ⟨List.all_eq_true.1 rfl, Nat.le_refl 1⟩
    · exact ⟨List.all_eq_true.1 rfl, Nat.le_refl 1⟩
  · rintro ⟨hholds, hallowed⟩
    match sign with
    | [] => exact List.mem_cons_self ..
    | [c] =>
      have hc := hholds c (List.mem_singleton_self c)
      simp only [isSign, Bool.or_eq_true, beq_iff_eq] at hc
      rcases hc with rfl | rfl <;> decide
    | c :: d :: cs => exact absurd (Nat.le_of_succ_le_succ hallowed) (Nat.not_succ_le_zero _)

theorem Spelling.isAsciiBlank_before (p : Spelling) : ∀ c ∈ p.before, isAsciiBlank c = true :=
  fun _ hc => mem_blanks.1 (p.before_blank hc)

theorem Spelling.isDigit_digits (p : Spelling) : ∀ c ∈ p.digits, c.isDigit = true :=
  fun _ hc => mem_asciiDigits.1 (p.digits_ascii hc)

theorem Spelling.isAsciiBlank_after (p : Spelling) : ∀ c ∈ p.after, isAsciiBlank c = true :=
  fun _ hc => mem_blanks.1 (p.after_blank hc)

/-- The pattern over characters accepts the spellings and nothing else. -/
theorem accepts_iff_spelled {s : String} :
    Pattern.accepts pattern s.toList = true ↔ ∃ p : Spelling, p.text = s := by
  rw [accepts_iff_matches]
  constructor
  · generalize hs : s.toList = cs
    intro h
    -- one piece for each part of the pattern, and nothing behind the last
    cases h with
    | @cons _ _ before _ hbefore h =>
    cases h with
    | @cons _ _ sign _ hsign h =>
    cases h with
    | @cons _ _ digits _ hdigits h =>
    cases h with
    | @cons _ _ after _ hafter h =>
    cases h
    refine ⟨⟨before, sign, digits, after, ?_, mem_signs.2 hsign, ?_, ?_, ?_⟩, ?_⟩
    · exact fun c hc => mem_blanks.2 (hbefore.holds c hc)
    · exact List.length_pos_iff.1 hdigits.allowed
    · exact fun c hc => mem_asciiDigits.2 (hdigits.holds c hc)
    · exact fun c hc => mem_blanks.2 (hafter.holds c hc)
    · rw [List.append_nil] at hs
      show String.ofList (before ++ (sign ++ (digits ++ after))) = s
      rw [← hs, String.ofList_toList]
  · rintro ⟨p, rfl⟩
    rw [Spelling.text, String.toList_ofList, ← List.append_nil p.after]
    have hdigits : (⟨Char.isDigit, .some⟩ : Text.Part Char).Takes p.digits :=
      ⟨p.isDigit_digits, List.length_pos_iff.2 p.some_digit⟩
    exact .cons ⟨p.isAsciiBlank_before, trivial⟩ (.cons (mem_signs.1 p.single_sign)
      (.cons hdigits (.cons ⟨p.isAsciiBlank_after, trivial⟩ .nil)))

theorem parts?_text (p : Spelling) : parts? p.text.toList = some (decide (p.sign = ['-']), p.digits) := by
  rw [Spelling.text, String.toList_ofList]
  exact parts?_append p.isAsciiBlank_before p.single_sign p.some_digit p.isDigit_digits p.isAsciiBlank_after

/-- A text has one row of digits, however it is spelled. -/
theorem digits_of_text_eq {p q : Spelling} (h : p.text = q.text) : p.digits = q.digits := by
  have hparts := parts?_text p
  rw [h, parts?_text q] at hparts
  exact (Prod.mk.inj (Option.some.inj hparts)).2.symm

/-- Behind the blanks and the sign of a text that has the parts of a counter there are digits and blanks. -/
theorem isSome_parts? {cs : List Char} (h : (parts? cs).isSome = true) :
    (Numeral.splitSign (cs.dropWhile isAsciiBlank)).2.takeWhile Char.isDigit ≠ [] ∧
      ((Numeral.splitSign (cs.dropWhile isAsciiBlank)).2.dropWhile Char.isDigit).all isAsciiBlank = true := by
  unfold parts? at h
  simp only at h
  split at h
  · cases h
  · next hdigits =>
    split at h
    · next hblanks => exact ⟨mt List.isEmpty_iff.2 hdigits, hblanks⟩
    · cases h

/-- A text that has the parts of a counter is spelled by them. -/
theorem isSome_parts?_iff_spelled {s : String} :
    (parts? s.toList).isSome = true ↔ ∃ p : Spelling, p.text = s := by
  constructor
  · intro h
    obtain ⟨sign, hsign, hsplit⟩ := Numeral.exists_sign (s.toList.dropWhile isAsciiBlank)
    obtain ⟨hdigits, hblanks⟩ := isSome_parts? h
    let rest := (Numeral.splitSign (s.toList.dropWhile isAsciiBlank)).2
    refine ⟨⟨s.toList.takeWhile isAsciiBlank, sign, rest.takeWhile Char.isDigit,
      rest.dropWhile Char.isDigit, ?_, hsign, hdigits, ?_, ?_⟩, ?_⟩
    · exact fun c hc => mem_blanks.2 (List.all_eq_true.1 List.all_takeWhile c hc)
    · exact fun c hc => mem_asciiDigits.2 (List.all_eq_true.1 List.all_takeWhile c hc)
    · exact fun c hc => mem_blanks.2 (List.all_eq_true.1 hblanks c hc)
    · show String.ofList (_ ++ (sign ++ (rest.takeWhile _ ++ rest.dropWhile _))) = s
      rw [List.takeWhile_append_dropWhile, ← hsplit, List.takeWhile_append_dropWhile, String.ofList_toList]
  · rintro ⟨p, rfl⟩
    rw [parts?_text]
    rfl

end Counter

/-! ### The value -/

/-- Octet for octet and digit for digit the number grows alike. -/
theorem foldl_encoded {ds : List Char} (h : ∀ c ∈ ds, c.isDigit = true) (n : Nat) :
    (encoded ds).foldl (fun n b => 10 * n + (b.toNat - 48)) n =
      ds.foldl (fun n c => 10 * n + (c.toNat - 48)) n := by
  induction ds generalizing n with
  | nil => rfl
  | cons c ds ih =>
    have hlt := isDigitByte_sameClass.lt_of_holds (h c (List.mem_cons_self ..))
    have hnat : (UInt8.ofNat c.toNat).toNat = c.toNat := by
      rw [UInt8.toNat_ofNat']
      omega
    rw [encoded_cons, utf8EncodeChar_of_lt hlt, List.cons_append, List.nil_append, List.foldl_cons,
      List.foldl_cons, hnat, ih fun d hd => h d (List.mem_cons_of_mem _ hd)]

/-- The script reads a spelling as its value. -/
theorem Script.wholeNumber_text (p : Counter.Spelling) : wholeNumber (octets p.text) = p.value := by
  have hdigit := p.isDigit_digits
  have hafter : ∀ c ∈ p.after.head?, c.isDigit = false := fun c hc =>
    isDigit_of_isAsciiBlank (p.isAsciiBlank_after c (List.mem_of_mem_head? hc))
  have hsigned : (encoded p.text.toList).dropWhile isBlankByte = encoded (p.sign ++ (p.digits ++ p.after)) := by
    rw [isBlankByte_sameClass.dropWhile_encoded, Counter.Spelling.text, String.toList_ofList,
      List.dropWhile_append_of_pos p.isAsciiBlank_before]
    exact congrArg encoded (Numeral.dropWhile_append
      (fun c hc => isAsciiBlank_of_isNumberBlank (isNumberBlank_of_isDigit hc)) rfl rfl p.single_sign
      p.some_digit hdigit p.after)
  obtain ⟨hunsigned, hminus⟩ := Numeral.dropSign_append p.single_sign p.some_digit hdigit p.after
  unfold wholeNumber Counter.Spelling.value Counter.signed
  simp only [octets_eq_encoded, hsigned, isSignByte_sameClass.dropWhile_encoded, hunsigned,
    isDigitByte_sameClass.takeWhile_encoded, (digits_append hdigit hafter).1, foldl_encoded hdigit, hminus,
    decide_eq_true_eq]
  rfl

/-! ### The script -/

/-- An increment of a document that is stored goes by the pattern. -/
theorem Script.run_increment_stored {r : Request} {k : Key} {delta : Int} {ks : Keyspace} {d : Document}
    (hc : r.command = .increment k delta) (hfind : ks.find? r.document = some (.document d)) :
    run r ks =
      if counterPattern.accepts (octets d.content) then
        writeNumber r ((Rounded.ofInt (wholeNumber (octets d.content))).add (Rounded.ofInt delta)) ks
      else .ok (.list [.int 0, .text d.content]) ks := by
  have hdocument := Server.document?_eq r.document ks
  rw [hfind] at hdocument
  simp only [run, hc]
  refine (bind_of_ok hdocument).trans ?_
  simp only
  split <;> rfl

/-! ## Top theorems -/

/-- The server takes the spellings for counters. -/
theorem Script.accepts_iff_spelled {s : String} :
    counterPattern.accepts (octets s) = true ↔ ∃ p : Counter.Spelling, p.text = s := by
  rw [← Counter.accepts_iff_spelled, octets_eq_encoded]
  exact Bool.eq_iff_iff.1 (accepts_encoded sameParts_counter s.toList)

/-- And takes for one what has the parts of one. -/
theorem Script.accepts_octets (s : String) :
    counterPattern.accepts (octets s) = (Counter.parts? s.toList).isSome := by
  rw [Bool.eq_iff_iff, accepts_iff_spelled, Counter.isSome_parts?_iff_spelled]

/-- And reads the same value. -/
theorem Script.wholeNumber_octets {s : String} {negative : Bool} {ds : List Char}
    (h : Counter.parts? s.toList = some (negative, ds)) :
    wholeNumber (octets s) = Counter.signed negative (Numeral.value ds) := by
  obtain ⟨p, rfl⟩ := Counter.isSome_parts?_iff_spelled.1 (Option.isSome_of_mem h)
  rw [Counter.parts?_text] at h
  cases h
  exact wholeNumber_text p

end CasStore
