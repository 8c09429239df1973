import CasStore.Json.Reader
import CasStore.Proofs.Numerals
import CasStore.Typed.User

/-!
# Reading back JSON

What is written as JSON is read back: a string whatever characters it holds, an integer unless it has too
many digits, and an object of these field by field.  So a user is read back from the content that holds
him.

    an escaped character is read as itself                           (readString_escaped)
    a string is read back                                            (readValue_quote)
    an integer is read back, unless it has too many digits           (readValue_digits)
    a user is read back, unless the id has too many digits           (User.parse_serialize)
-/

namespace CasStore

namespace Json

open Numeral

/-! ## Algorithm -/

/-- How a character stands in a string: by a letter after a backslash, by its number, or as itself. -/
inductive Escaped : Char → List Char → Prop
  | named {c letter} (h : escaped? letter = some c) (hu : letter ≠ 'u') : Escaped c ['\\', letter]
  | numbered {c} (h : c.toNat < 0x20) : Escaped c ('\\' :: 'u' :: Text.hexDigits 4 c.toNat)
  | plain {c} (hquote : c ≠ '"') (hslash : c ≠ '\\') (h : 0x20 ≤ c.toNat) : Escaped c [c]

/-- With `rest` behind it a row of digits is a whole number that ends there. -/
def Closes (rest : List Char) : Prop :=
  ∀ c ∈ rest.head?, c.isDigit = false ∧ c ≠ '.' ∧ c ≠ 'e' ∧ c ≠ 'E'

/-! ## Lemmas -/

/-! ### Strings -/

theorem hexValue?_digitChar {d : Nat} (h : d < 16) : hexValue? (Nat.digitChar d) = some d := by
  have : ∀ d : Fin 16, hexValue? (Nat.digitChar d) = some d.val := by decide
  exact this ⟨d, h⟩

theorem hexDigits_four (n : Nat) : Text.hexDigits 4 n =
    [Nat.digitChar (n / 4096 % 16), Nat.digitChar (n / 256 % 16), Nat.digitChar (n / 16 % 16),
      Nat.digitChar (n % 16)] := by
  simp [Text.hexDigits, List.range_succ]

theorem hexValue4?_of_lt {n : Nat} (h : n < 65536) :
    hexValue4? (Nat.digitChar (n / 4096 % 16)) (Nat.digitChar (n / 256 % 16))
      (Nat.digitChar (n / 16 % 16)) (Nat.digitChar (n % 16)) = some n := by
  have hmod : ∀ m, m % 16 < 16 := fun m => Nat.mod_lt m (by decide)
  simp only [hexValue4?, hexValue?_digitChar (hmod _), Option.bind_eq_bind, Option.bind_some,
    Option.pure_def, Option.some.injEq]
  omega

theorem ofUnit_of_lt {c : Char} (h : c.toNat < 0xd800) : ofUnit c.toNat = c := by
  rw [ofUnit, if_neg (by omega), Char.ofNat_toNat]

theorem escaped_escapeChar (c : Char) : Escaped c (escapeChar c) := by
  unfold escapeChar
  split
  · next h => exact .named (by rw [h]; rfl) (by decide)
  split
  · next h => exact .named (by rw [h]; rfl) (by decide)
  split
  · next h => exact .named (by rw [h]; rfl) (by decide)
  split
  · next h => exact .named (by rw [h]; rfl) (by decide)
  split
  · next h => exact .named (by rw [h]; rfl) (by decide)
  split
  · next h => exact .named (by rw [h]; rfl) (by decide)
  split
  · next h => exact .named (by rw [h]; rfl) (by decide)
  split
  · next h => exact .numbered h
  · next hquote hslash _ _ _ _ _ h => exact .plain hquote hslash (Nat.not_lt.1 h)

/-- An escaped character is read as itself; an escaped number must not be the last thing there is. -/
theorem readString_escaped {c : Char} {cs rest text more : List Char} {start : Nat} (h : Escaped c cs)
    (hne : rest ≠ []) (hrest : readString start rest = .ok (text, more)) :
    readString start (cs ++ rest) = .ok (c :: text, more) := by
  cases h with
  | @named letter hletter hu =>
    have hstep : readString start ('\\' :: letter :: rest) =
        (fun r => (c :: r.1, r.2)) <$> readString start rest := by
      simp [readString, hu, hletter]
    show readString start ('\\' :: letter :: rest) = _
    rw [hstep, hrest]
    rfl
  | numbered hc =>
    have hvalue := hexValue4?_of_lt (n := c.toNat) (by omega)
    have hhigh : ¬ (0xd800 ≤ c.toNat ∧ c.toNat < 0xdc00) := by omega
    rw [hexDigits_four]
    show readString start ('\\' :: 'u' :: _ :: _ :: _ :: _ :: rest) = _
    rw [readString.eq_5 _ _ _ _ _ _ _ hvalue hne]
    split
    · next h => rw [if_neg hhigh] at h; cases h
    · rw [hrest, ofUnit_of_lt (by omega)]
      rfl
  | plain hquote hslash hc =>
    have hstep : readString start (c :: rest) =
        (fun r => (c :: r.1, r.2)) <$> readString start rest := by
      simp [readString, hslash, Nat.not_lt.2 hc]
    show readString start (c :: rest) = _
    rw [hstep, hrest]
    rfl

theorem readString_flatMap (cs rest : List Char) (start : Nat) :
    readString start (cs.flatMap escapeChar ++ '"' :: rest) = .ok (cs, rest) := by
  induction cs with
  | nil => rw [List.flatMap_nil, List.nil_append, readString]
  | cons c cs ih =>
    rw [List.flatMap_cons, List.append_assoc]
    exact readString_escaped (escaped_escapeChar c)
      (List.append_ne_nil_of_right_ne_nil _ (List.cons_ne_nil _ _)) ih

theorem quote_append (s : String) (rest : List Char) :
    quote s ++ rest = '"' :: (s.toList.flatMap escapeChar ++ '"' :: rest) := by
  rw [quote, List.cons_append, List.cons_append, List.append_assoc, List.singleton_append]

theorem skipSpace_quote (s : String) (rest : List Char) : skipSpace (quote s ++ rest) = quote s ++ rest := by
  rw [quote_append]
  rfl

/-- A string is read back. -/
theorem readValue_quote (l : Limits) (turns opened : Nat) (s : String) (rest : List Char) :
    readValue l (turns + 1) opened (quote s ++ rest) = .ok (.text s, rest) := by
  rw [quote_append, readValue, readString_flatMap]
  show Except.ok (text (String.ofList s.toList), rest) = _
  rw [String.ofList_toList]

/-! ### Units in pairs -/

theorem unitsPaired_escaped {c : Char} {cs : List Char} (h : Escaped c cs) (rest : List Char) :
    unitsPaired (cs ++ rest) = unitsPaired rest := by
  cases h with
  | @named letter hletter hu =>
    show unitsPaired ('\\' :: letter :: rest) = _
    simp [unitsPaired, hu]
  | numbered hc =>
    have hvalue := hexValue4?_of_lt (n := c.toNat) (by omega)
    have hhigh : ¬ (0xd800 ≤ c.toNat ∧ c.toNat < 0xdc00) := by omega
    have hpaired : decide (c.toNat < 0xdc00 ∨ 0xe000 ≤ c.toNat) = true := decide_eq_true (by omega)
    rw [hexDigits_four]
    show unitsPaired ('\\' :: 'u' :: _ :: _ :: _ :: _ :: rest) = _
    rw [unitsPaired.eq_def]
    simp only [hvalue, if_neg hhigh, hpaired, Bool.true_and]
  | plain hquote hslash hc =>
    show unitsPaired (c :: rest) = _
    simp [unitsPaired, hslash]

theorem unitsPaired_plain {cs : List Char} (h : ∀ c ∈ cs, c ≠ '\\') (rest : List Char) :
    unitsPaired (cs ++ rest) = unitsPaired rest := by
  induction cs with
  | nil => rfl
  | cons c cs ih =>
    have hc := h c (List.mem_cons_self ..)
    rw [List.cons_append, ← ih fun d hd => h d (List.mem_cons_of_mem _ hd)]
    simp [unitsPaired, hc]

theorem unitsPaired_cons {c : Char} (h : c ≠ '\\') (rest : List Char) :
    unitsPaired (c :: rest) = unitsPaired rest :=
  unitsPaired_plain (List.forall_mem_singleton.2 h) rest

theorem unitsPaired_quote (s : String) (rest : List Char) :
    unitsPaired (quote s ++ rest) = unitsPaired rest := by
  have hbody : ∀ cs : List Char, unitsPaired (cs.flatMap escapeChar ++ '"' :: rest) = unitsPaired rest := by
    intro cs
    induction cs with
    | nil => exact unitsPaired_cons (by decide) rest
    | cons c cs ih =>
      rw [List.flatMap_cons, List.append_assoc, unitsPaired_escaped (escaped_escapeChar c)]
      exact ih
  rw [quote_append, unitsPaired_cons (by decide)]
  exact hbody _

/-! ### Numbers -/

theorem readFraction_of_closes {rest : List Char} (h : Closes rest) : readFraction rest = ([], rest) := by
  unfold readFraction
  split
  · exact absurd rfl (h '.' rfl).2.1
  · rfl

theorem readExponent_of_closes {rest : List Char} (h : Closes rest) : readExponent rest = (none, rest) := by
  cases rest with
  | nil => rfl
  | cons c cs =>
    obtain ⟨-, -, hlower, hupper⟩ := h c rfl
    unfold readExponent
    exact if_neg (by rintro (rfl | rfl) <;> contradiction)

theorem closes_comma (cs : List Char) : Closes (',' :: cs) := by
  intro c hc
  cases hc
  decide

/-- Only zero starts with a zero. -/
theorem eq_zero_of_natDigits {n : Nat} {ds : List Char} (h : natDigits n = '0' :: ds) : n = 0 := by
  induction n using Nat.strongRecOn generalizing ds with
  | ind n ih =>
    unfold natDigits at h
    split at h
    · next hn =>
      have hchar := digitChar_toNat hn
      rw [(List.cons.inj h).1] at hchar
      have hzero : ('0').toNat = 48 := rfl
      omega
    · next hn =>
      cases hds : natDigits (n / 10) with
      | nil => exact absurd hds (natDigits_ne_nil _)
      | cons d ds' =>
        rw [hds, List.cons_append] at h
        rw [(List.cons.inj h).1] at hds
        have := ih (n / 10) (by omega) hds
        omega

theorem eq_nil_of_natDigits {n : Nat} {ds : List Char} (h : natDigits n = '0' :: ds) : ds = [] := by
  have hzero : natDigits 0 = ['0'] := by decide +kernel
  rw [eq_zero_of_natDigits h, hzero] at h
  exact (List.cons.inj h).2.symm

/-- The digits of a number are read as the number, unless there are too many. -/
theorem readUnsigned_natDigits (l : Limits) (start : Nat) (negative : Bool) (n : Nat) {rest : List Char}
    (hrest : Closes rest) :
    readUnsigned l start negative (natDigits n ++ rest) =
      if maxDigits < (natDigits n).length then .error (.tooLong (natDigits n).length)
      else .ok (.int (if negative then -(n : Int) else n), rest) := by
  have hdigits := natDigits_isDigit n
  obtain ⟨htake, hdrop⟩ := Text.digits_append hdigits fun c hc => (hrest c hc).1
  cases hds : natDigits n with
  | nil => exact absurd hds (natDigits_ne_nil n)
  | cons c ds =>
    have hc : c.isDigit = true := hdigits c (hds ▸ List.mem_cons_self ..)
    have hzero : c = '0' → ds = [] := fun h => eq_nil_of_natDigits (n := n) (by rw [hds, h])
    rw [hds] at htake hdrop
    have hwhole : (if c = '0' then [c] else (c :: ds ++ rest).takeWhile Char.isDigit) = natDigits n := by
      split
      · next h => rw [hds, hzero h]
      · rw [htake, hds]
    have hbehind : (if c = '0' then ds ++ rest else (c :: ds ++ rest).dropWhile Char.isDigit) = rest := by
      split
      · next h => rw [hzero h, List.nil_append]
      · exact hdrop
    unfold readUnsigned
    simp only [List.cons_append] at hwhole hbehind ⊢
    rw [if_pos hc]
    simp only [hwhole, hbehind, readFraction_of_closes hrest, readExponent_of_closes hrest, List.isEmpty_nil,
      if_true, value_natDigits, ← hds]
    -- the limit for all numbers is looked at first, then that for integers
    cases l.allNumbers <;> cases negative <;> grind

theorem ne_of_isDigit {c d : Char} (hc : c.isDigit = true) (hd : d.isDigit = false) : c ≠ d := by
  rintro rfl
  rw [hc] at hd
  cases hd

/-- A numeral starts with a minus or a digit. -/
theorem digits_cons (i : Int) : ∃ c cs, digits i = c :: cs ∧ (c = '-' ∨ c.isDigit = true) := by
  unfold digits
  split
  · exact ⟨_, _, rfl, .inl rfl⟩
  · cases hds : natDigits i.natAbs with
    | nil => exact absurd hds (natDigits_ne_nil _)
    | cons c ds => exact ⟨c, ds, rfl, .inr (natDigits_isDigit _ c (hds ▸ List.mem_cons_self ..))⟩

theorem skipSpace_digits (i : Int) (rest : List Char) : skipSpace (digits i ++ rest) = digits i ++ rest := by
  obtain ⟨c, cs, hcs, hc⟩ := digits_cons i
  have hspace : isSpace c = false := by
    rcases hc with rfl | hc
    · rfl
    · have hne := fun {d : Char} (hd : d.isDigit = false) => ne_of_isDigit hc hd
      simp [isSpace, hne]
  rw [hcs, List.cons_append, skipSpace, List.dropWhile_cons_of_neg (by rw [hspace]; decide)]

theorem ne_backslash_of_mem_digits (i : Int) : ∀ c ∈ digits i, c ≠ '\\' := by
  have hdigit : ∀ c ∈ natDigits i.natAbs, c ≠ '\\' := fun c hc =>
    ne_of_isDigit (natDigits_isDigit _ c hc) rfl
  intro c hc
  unfold digits at hc
  split at hc
  · rcases List.mem_cons.1 hc with rfl | hc
    · decide
    · exact hdigit c hc
  · exact hdigit c hc

/-- A digit starts a number. -/
theorem readScalar_digit (l : Limits) {c : Char} (hc : c.isDigit = true) (cs : List Char) :
    readScalar l (c :: cs) = readUnsigned l (c :: cs).length false (c :: cs) := by
  have hnull := ne_of_isDigit hc (d := 'n') rfl
  have htrue := ne_of_isDigit hc (d := 't') rfl
  have hfalse := ne_of_isDigit hc (d := 'f') rfl
  have hnan := ne_of_isDigit hc (d := 'N') rfl
  have hinfinity := ne_of_isDigit hc (d := 'I') rfl
  have hminus := ne_of_isDigit hc (d := '-') rfl
  simp [readScalar, afterWord?, hnull.symm, htrue.symm, hfalse.symm, hnan.symm, hinfinity.symm, hminus.symm]
  split
  · next heq => exact absurd (List.cons.inj heq).1 hminus
  · rfl

/-- A minus in front of a digit starts a negative number. -/
theorem readScalar_minus (l : Limits) {c : Char} (hc : c.isDigit = true) (cs : List Char) :
    readScalar l ('-' :: c :: cs) = readUnsigned l ('-' :: c :: cs).length true (c :: cs) := by
  have hinfinity := ne_of_isDigit hc (d := 'I') rfl
  simp [readScalar, afterWord?, hinfinity.symm]

theorem readScalar_digits (l : Limits) (i : Int) (rest : List Char) :
    readScalar l (digits i ++ rest) =
      readUnsigned l (digits i ++ rest).length (decide (i < 0)) (natDigits i.natAbs ++ rest) := by
  have hdigits := natDigits_isDigit i.natAbs
  unfold digits
  cases hds : natDigits i.natAbs with
  | nil => exact absurd hds (natDigits_ne_nil _)
  | cons c ds =>
    have hc : c.isDigit = true := hdigits c (hds ▸ List.mem_cons_self ..)
    split
    · next hneg =>
      rw [decide_eq_true hneg]
      exact readScalar_minus l hc _
    · next hneg =>
      rw [decide_eq_false hneg]
      exact readScalar_digit l hc _

/-- What starts neither a string nor an object nor a list is a number or a word. -/
theorem readValue_of_ne (l : Limits) (turns opened : Nat) {c : Char} (cs : List Char) (hquote : c ≠ '"')
    (hbrace : c ≠ '{') (hbracket : c ≠ '[') :
    readValue l (turns + 1) opened (c :: cs) = readScalar l (c :: cs) := by
  rw [readValue]
  · exact fun _ h => hquote (List.cons.inj h).1
  · exact fun _ h => hbrace (List.cons.inj h).1
  · exact fun _ h => hbracket (List.cons.inj h).1

/-- An integer is read back, unless it has too many digits. -/
theorem readValue_digits (l : Limits) (turns opened : Nat) (i : Int) {rest : List Char} (hrest : Closes rest) :
    readValue l (turns + 1) opened (digits i ++ rest) =
      if maxDigits < (natDigits i.natAbs).length then .error (.tooLong (natDigits i.natAbs).length)
      else .ok (.int i, rest) := by
  have hscalar : readValue l (turns + 1) opened (digits i ++ rest) = readScalar l (digits i ++ rest) := by
    obtain ⟨c, cs, hcs, hc⟩ := digits_cons i
    rw [hcs]
    rcases hc with rfl | hc
    · exact readValue_of_ne l turns opened _ (by decide) (by decide) (by decide)
    · exact readValue_of_ne l turns opened _ (ne_of_isDigit hc rfl) (ne_of_isDigit hc rfl)
        (ne_of_isDigit hc rfl)
  have hvalue : (if decide (i < 0) then -(i.natAbs : Int) else i.natAbs) = i := by
    simp only [decide_eq_true_eq]
    split <;> omega
  rw [hscalar, readScalar_digits, readUnsigned_natDigits l _ _ _ hrest, hvalue]

/-! ### Objects -/

theorem skipSpace_colon (cs : List Char) : skipSpace (':' :: cs) = ':' :: cs := rfl

section

variable (l : Limits) (turns opened : Nat) (fs : List (String × Json)) (name : String) {v : Json}
  {cs rest : List Char}

/-- The last field of an object. -/
theorem readFields_last (hv : readValue l turns opened (skipSpace cs) = .ok (v, '}' :: rest)) :
    readFields l (turns + 1) opened fs (quote name ++ ':' :: cs) = .ok (setField name v fs, rest) := by
  have hbrace : skipSpace ('}' :: rest) = '}' :: rest := rfl
  rw [quote_append, readFields, readString_flatMap]
  simp only [bind, Except.bind, skipSpace_colon, hv, hbrace, String.ofList_toList, pure, Except.pure]

/-- A field with others behind it. -/
theorem readFields_more (hv : readValue l turns opened (skipSpace cs) = .ok (v, ',' :: rest)) :
    readFields l (turns + 1) opened fs (quote name ++ ':' :: cs) =
      readFields l turns opened (setField name v fs) (skipSpace rest) := by
  have hcomma : skipSpace (',' :: rest) = ',' :: rest := rfl
  rw [quote_append, readFields, readString_flatMap]
  simp only [bind, Except.bind, skipSpace_colon, hv, hcomma, String.ofList_toList]

/-- A field whose value is refused. -/
theorem readFields_error {e : Stop} (hv : readValue l turns opened (skipSpace cs) = .error e) :
    readFields l (turns + 1) opened fs (quote name ++ ':' :: cs) = .error e := by
  rw [quote_append, readFields, readString_flatMap]
  simp only [bind, Except.bind, skipSpace_colon, hv]

end

/-- An object that has a field is read field by field. -/
theorem readValue_object {l : Limits} {opened : Nat} (hadmits : l.admits opened = true) (turns : Nat)
    (name : String) (cs : List Char) :
    readValue l (turns + 1) opened ('{' :: (quote name ++ cs)) =
      (readFields l turns (opened + 1) [] (quote name ++ cs)).map fun r => (.object r.1, r.2) := by
  have hspace : ∀ cs, skipSpace ('"' :: cs) = '"' :: cs := fun _ => rfl
  rw [quote_append, readValue, hspace]
  split
  · next heq => exact absurd (List.cons.inj heq).1 (by decide)
  · rw [if_pos hadmits]
    rfl

section

variable {l : Limits} {cs : List Char} (hmark : ∀ cs', cs ≠ '\ufeff' :: cs')
include hmark

/-- A value with nothing behind it is the whole of a text. -/
theorem readAll_of_ok {v : Json} (hv : readValue l (cs.length + 1) 0 (skipSpace cs) = .ok (v, [])) :
    readAll l cs = .ok v := by
  rw [readAll, hv]
  · rfl
  · exact hmark

theorem readAll_of_error {e : Stop} (hv : readValue l (cs.length + 1) 0 (skipSpace cs) = .error e) :
    readAll l cs = .error e := by
  rw [readAll, hv]
  · rfl
  · exact hmark

end

end Json

/-! ## Users -/

namespace User

open Json Numeral

/-- What stands behind the name of a user's first field. -/
def afterFirst (u : User) : List Char :=
  ':' :: (digits u.id ++ ',' :: (quote "name" ++ ':' :: (quote u.name ++ ['}'])))

theorem compact_toJson (u : User) : u.toJson.compact = '{' :: (quote "id" ++ u.afterFirst) := by
  simp only [toJson, compact, compactFields, afterFirst, List.append_assoc, List.cons_append]

/-- The fields of a user are read back, unless the id has too many digits. -/
theorem readFields_afterFirst (u : User) (turns : Nat) :
    readFields limits (turns + 3) 1 [] (quote "id" ++ u.afterFirst) =
      if maxDigits < (natDigits u.id.natAbs).length then .error (.tooLong (natDigits u.id.natAbs).length)
      else .ok ([("id", .int u.id), ("name", .text u.name)], []) := by
  have hid := readValue_digits limits (turns + 1) 1 u.id
    (closes_comma (quote "name" ++ ':' :: (quote u.name ++ ['}'])))
  rw [← skipSpace_digits] at hid
  by_cases hlong : maxDigits < (natDigits u.id.natAbs).length
  · rw [if_pos hlong] at hid ⊢
    exact readFields_error limits _ 1 [] "id" hid
  · rw [if_neg hlong] at hid ⊢
    have hname : readValue limits (turns + 1) 1 (skipSpace (quote u.name ++ ['}'])) =
        .ok (.text u.name, ['}']) := by
      rw [skipSpace_quote]
      exact readValue_quote ..
    rw [afterFirst, readFields_more limits _ 1 [] "id" hid, skipSpace_quote,
      readFields_last limits _ 1 _ "name" hname]
    rfl

/-- The object of a user is read back, unless the id has too many digits. -/
theorem readAll_toJson (u : User) :
    readAll limits u.toJson.compact =
      if maxDigits < (natDigits u.id.natAbs).length then .error (.tooLong (natDigits u.id.natAbs).length)
      else .ok u.toJson := by
  obtain ⟨turns, hturns⟩ : ∃ turns, (quote "id" ++ u.afterFirst).length + 1 = turns + 3 := by
    refine ⟨(quote "id" ++ u.afterFirst).length - 2, ?_⟩
    have : 2 ≤ (quote "id" ++ u.afterFirst).length := by
      rw [quote_append, List.length_cons, List.length_append, List.length_cons]
      omega
    omega
  have hadmits : limits.admits 0 = true := rfl
  have hmark : ∀ cs', '{' :: (quote "id" ++ u.afterFirst) ≠ '\ufeff' :: cs' := fun _ h =>
    absurd (List.cons.inj h).1 (by decide)
  have hvalue := readValue_object hadmits (turns + 3) "id" u.afterFirst
  rw [readFields_afterFirst, ← hturns] at hvalue
  rw [compact_toJson]
  by_cases hlong : maxDigits < (natDigits u.id.natAbs).length
  · rw [if_pos hlong] at hvalue ⊢
    exact readAll_of_error hmark hvalue
  · rw [if_neg hlong] at hvalue ⊢
    exact readAll_of_ok hmark hvalue

theorem unitsPaired_toJson (u : User) : unitsPaired u.toJson.compact = true := by
  rw [compact_toJson, afterFirst, unitsPaired_cons (by decide), unitsPaired_quote,
    unitsPaired_cons (by decide), unitsPaired_plain (ne_backslash_of_mem_digits u.id),
    unitsPaired_cons (by decide), unitsPaired_quote, unitsPaired_cons (by decide), unitsPaired_quote]
  rfl

/-- What is written of a user is read back, unless the id has too many digits. -/
theorem parse_serialize (u : User) :
    parse u.serialize = if (natDigits u.id.natAbs).length ≤ maxDigits then .ok u else .error 1 := by
  unfold parse Json.read
  rw [serialize, String.toList_ofList, readAll_toJson, unitsPaired_toJson]
  by_cases hlong : maxDigits < (natDigits u.id.natAbs).length
  · rw [if_pos hlong, if_neg (Nat.not_le.2 hlong)]
  · rw [if_neg hlong, if_pos (Nat.not_lt.1 hlong)]
    rfl

theorem deserialize_serialize (u : User) :
    deserialize (.text u.serialize) =
      if (natDigits u.id.natAbs).length ≤ maxDigits then .ok (.user u) else .error (invalid 1) := by
  simp only [deserialize, parse_serialize]
  by_cases hshort : (natDigits u.id.natAbs).length ≤ maxDigits
  · simp only [if_pos hshort]
  · simp only [if_neg hshort]

end User

end CasStore
