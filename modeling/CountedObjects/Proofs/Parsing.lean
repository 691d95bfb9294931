import Mathlib.Data.List.TakeWhile
import CountedObjects.Scalar

/-! The grammar of integer numerals, and what parsing answers for every text. -/
namespace CountedObjects

namespace Text

/-- What is left of a text when the blanks at both ends are taken away. -/
structure Trimmed (text s : List Char) : Prop where
  around : ∃ before after, text = before ++ s ++ after ∧
    (∀ c ∈ before, isBlank c = true) ∧ ∀ c ∈ after, isBlank c = true
  front : ∀ c ∈ s.head?, isBlank c = false
  back : ∀ c ∈ s.getLast?, isBlank c = false

theorem head?_trimLeft (cs : List Char) : ∀ c ∈ (trimLeft cs).head?, isBlank c = false := by
  intro c hc
  have h := List.head?_dropWhile_not isBlank cs
  rw [trimLeft] at hc
  rw [hc] at h
  exact h

theorem trimLeft_split (cs : List Char) :
    ∃ before, cs = before ++ trimLeft cs ∧ ∀ c ∈ before, isBlank c = true :=
  ⟨cs.takeWhile isBlank, List.takeWhile_append_dropWhile.symm,
    fun _ hc => List.mem_takeWhile_imp hc⟩

theorem trimRight_split (cs : List Char) :
    ∃ after, cs = trimRight cs ++ after ∧ ∀ c ∈ after, isBlank c = true := by
  obtain ⟨before, h, hb⟩ := trimLeft_split cs.reverse
  refine ⟨before.reverse, ?_, fun c hc => hb c (List.mem_reverse.mp hc)⟩
  rw [trimRight, ← List.reverse_append, ← h, List.reverse_reverse]

theorem trimmed_trim (cs : List Char) : Trimmed cs (trim cs) := by
  obtain ⟨before, hfront, hbefore⟩ := trimLeft_split cs
  obtain ⟨after, hback, hafter⟩ := trimRight_split (trimLeft cs)
  refine ⟨⟨before, after, ?_, hbefore, hafter⟩, ?_, ?_⟩
  · rw [List.append_assoc, trim, ← hback]
    exact hfront
  · intro c hc
    refine head?_trimLeft cs c ?_
    rw [hback, List.head?_append, ← trim, hc]
    rfl
  · intro c hc
    rw [trim, trimRight, List.getLast?_reverse] at hc
    exact head?_trimLeft _ c hc

inductive Sign
  | plus | minus

namespace Sign

def apply : Sign → Nat → Int
  | plus, n => n
  | minus, n => -n

/-- The fault of a number beyond the range on the side of the sign. -/
def overflow : Sign → NumeralFault
  | plus => .tooLarge
  | minus => .tooSmall

def limit (r : NumeralRange) : Sign → Nat
  | plus => r.above
  | minus => r.below

end Sign

/-- A text as its sign and the rest. A minus sign is one only where the range goes below zero. -/
inductive Splits (r : NumeralRange) : List Char → Sign → List Char → Prop
  | plus (body : List Char) : Splits r ('+' :: body) .plus body
  | minus (body : List Char) (below : r.below ≠ 0) : Splits r ('-' :: body) .minus body
  | unsigned (c : Char) (cs : List Char) (noPlus : c ≠ '+') (noMinus : c = '-' → r.below = 0) :
      Splits r (c :: cs) .plus (c :: cs)

def AllDigits (ds : List Char) : Prop := ∀ c ∈ ds, c.isDigit = true

/-- A sign, if any, and one or more digits, for an integer of the range. -/
inductive Denotes (r : NumeralRange) (s : List Char) : Int → Prop
  | digits (sign : Sign) (ds : List Char) (splits : Splits r s sign ds) (some : ds ≠ [])
      (digits : AllDigits ds) (within : r.Contains (sign.apply (Nat.ofDigitChars 10 ds 0))) :
      Denotes r s (sign.apply (Nat.ofDigitChars 10 ds 0))

/-- The first thing wrong with a text, from the left. -/
inductive Fails (r : NumeralRange) (s : List Char) : NumeralFault → Prop
  | empty (nothing : s = []) : Fails r s .empty
  | loneSign (sign : Sign) (splits : Splits r s sign []) : Fails r s .invalidDigit
  | nonDigit (sign : Sign) (ds : List Char) (c : Char) (rest : List Char)
      (splits : Splits r s sign (ds ++ c :: rest)) (digits : AllDigits ds)
      (stray : c.isDigit = false)
      (within : ∀ p, p <+: ds → r.Contains (sign.apply (Nat.ofDigitChars 10 p 0))) :
      Fails r s .invalidDigit
  | overflow (sign : Sign) (ds rest : List Char) (splits : Splits r s sign (ds ++ rest))
      (digits : AllDigits ds) (beyond : ¬ r.Contains (sign.apply (Nat.ofDigitChars 10 ds 0))) :
      Fails r s sign.overflow

section Digits

variable {limit acc : Nat} {fault : NumeralFault} {ds rest : List Char} {c : Char}

theorem digitValue?_of_isDigit (h : c.isDigit = true) :
    digitValue? c = some (c.toNat - '0'.toNat) := by
  rw [Char.isDigit, Bool.and_eq_true, decide_eq_true_eq, decide_eq_true_eq] at h
  exact if_pos h

theorem digitValue?_of_not_isDigit (h : c.isDigit = false) : digitValue? c = none := by
  refine if_neg fun hc => ?_
  rw [Char.isDigit, Bool.and_eq_false_iff, decide_eq_false_iff_not, decide_eq_false_iff_not] at h
  exact h.elim (fun hn => hn hc.1) (fun hn => hn hc.2)

theorem le_ofDigitChars (ds : List Char) (acc : Nat) : acc ≤ Nat.ofDigitChars 10 ds acc := by
  induction ds generalizing acc with
  | nil => exact Nat.le_refl acc
  | cons d ds ih =>
    rw [Nat.ofDigitChars_cons]
    exact Nat.le_trans (by omega) (ih _)

theorem ofDigitChars_prefix_le {p : List Char} (h : p <+: ds) (acc : Nat) :
    Nat.ofDigitChars 10 p acc ≤ Nat.ofDigitChars 10 ds acc := by
  obtain ⟨t, rfl⟩ := h
  rw [Nat.ofDigitChars_append]
  exact le_ofDigitChars t _

theorem readDigits_cons_digit (h : c.isDigit = true) :
    readDigits limit fault acc (c :: rest) =
      if limit < Nat.ofDigitChars 10 [c] acc then .error fault
      else readDigits limit fault (Nat.ofDigitChars 10 [c] acc) rest := by
  rw [readDigits, digitValue?_of_isDigit h, Nat.ofDigitChars_cons, Nat.mul_comm 10 acc]
  rfl

theorem readDigits_cons_stray (h : c.isDigit = false) :
    readDigits limit fault acc (c :: rest) = .error .invalidDigit := by
  rw [readDigits, digitValue?_of_not_isDigit h]

/-- Digits that stay within the limit only move the number so far. -/
theorem readDigits_append (hd : AllDigits ds) (h : Nat.ofDigitChars 10 ds acc ≤ limit) :
    readDigits limit fault acc (ds ++ rest) =
      readDigits limit fault (Nat.ofDigitChars 10 ds acc) rest := by
  induction ds generalizing acc with
  | nil => rfl
  | cons d ds ih =>
    obtain ⟨hdig, hds⟩ := List.forall_mem_cons.mp hd
    have hstep : Nat.ofDigitChars 10 [d] acc ≤ limit :=
      Nat.le_trans (ofDigitChars_prefix_le ⟨ds, rfl⟩ acc) h
    rw [List.cons_append, readDigits_cons_digit hdig, if_neg (Nat.not_lt.mpr hstep)]
    exact ih hds h

theorem readDigits_beyond (hd : AllDigits ds) (hacc : acc ≤ limit)
    (h : limit < Nat.ofDigitChars 10 ds acc) :
    readDigits limit fault acc (ds ++ rest) = .error fault := by
  induction ds generalizing acc with
  | nil => exact absurd h (Nat.not_lt.mpr hacc)
  | cons d ds ih =>
    obtain ⟨hdig, hds⟩ := List.forall_mem_cons.mp hd
    rw [List.cons_append, readDigits_cons_digit hdig]
    split
    · rfl
    · next hstep => exact ih hds (Nat.not_lt.mp hstep) h

/-- Every text is digits up to its end, up to a number beyond the limit, or up to a stray
character, whichever comes first. -/
theorem digits_cases (limit : Nat) {acc : Nat} (hacc : acc ≤ limit) (cs : List Char) :
    (AllDigits cs ∧ Nat.ofDigitChars 10 cs acc ≤ limit) ∨
    (∃ ds rest, cs = ds ++ rest ∧ AllDigits ds ∧ limit < Nat.ofDigitChars 10 ds acc) ∨
    ∃ ds c rest, cs = ds ++ c :: rest ∧ AllDigits ds ∧ c.isDigit = false ∧
      Nat.ofDigitChars 10 ds acc ≤ limit := by
  induction cs generalizing acc with
  | nil => exact .inl ⟨List.forall_mem_nil _, hacc⟩
  | cons c cs ih =>
    cases hc : c.isDigit with
    | false => exact .inr (.inr ⟨[], c, cs, rfl, List.forall_mem_nil _, hc, hacc⟩)
    | true =>
      by_cases hlim : Nat.ofDigitChars 10 [c] acc ≤ limit
      · rcases ih hlim with ⟨hd, hle⟩ | ⟨ds, rest, rfl, hd, hlt⟩ | ⟨ds, b, rest, rfl, hd, hb, hle⟩
        · exact .inl ⟨List.forall_mem_cons.mpr ⟨hc, hd⟩, hle⟩
        · exact .inr (.inl ⟨c :: ds, rest, rfl, List.forall_mem_cons.mpr ⟨hc, hd⟩, hlt⟩)
        · exact .inr (.inr ⟨c :: ds, b, rest, rfl, List.forall_mem_cons.mpr ⟨hc, hd⟩, hb, hle⟩)
      · exact .inr (.inl ⟨[c], cs, rfl, List.forall_mem_singleton.mpr hc, Nat.not_le.mp hlim⟩)

end Digits

section Numerals

variable {r : NumeralRange} {s body : List Char} {sign : Sign}

theorem contains_apply (r : NumeralRange) (sign : Sign) (n : Nat) :
    r.Contains (sign.apply n) ↔ n ≤ sign.limit r := by
  cases sign <;> simp only [NumeralRange.Contains, Sign.apply, Sign.limit] <;> omega

theorem exists_splits {s : List Char} (r : NumeralRange) (h : s ≠ []) :
    ∃ sign body, Splits r s sign body := by
  cases s with
  | nil => exact absurd rfl h
  | cons c cs =>
    by_cases hp : c = '+'
    · subst hp
      exact ⟨_, _, .plus cs⟩
    by_cases hm : c = '-' ∧ r.below ≠ 0
    · obtain ⟨rfl, hb⟩ := hm
      exact ⟨_, _, .minus cs hb⟩
    · exact ⟨_, _, .unsigned c cs hp fun hc => not_not.mp fun hb => hm ⟨hc, hb⟩⟩

theorem Splits.readNumeral (h : Splits r s sign body) :
    readNumeral r s = (readMagnitude (sign.limit r) sign.overflow body).map sign.apply := by
  cases h with
  | plus => rfl
  | minus _ hb =>
    rw [Text.readNumeral, if_neg hb]
    show _ = (readMagnitude r.below .tooSmall body).map Sign.minus.apply
    cases readMagnitude r.below .tooSmall body <;> rfl
  | unsigned c cs hp hm =>
    by_cases hc : c = '-'
    · subst hc
      rw [Text.readNumeral, if_pos (hm rfl), readMagnitude, readDigits_cons_stray (by decide)]
      · rfl
      · exact List.cons_ne_nil _ _
    · exact readNumeral.eq_4 r (c :: cs) (by simp) (by simpa using hp) (by simpa using hc)

theorem readMagnitude_of_ne_nil {limit : Nat} {fault : NumeralFault} (h : body ≠ []) :
    readMagnitude limit fault body = readDigits limit fault 0 body := by
  cases body with
  | nil => exact absurd rfl h
  | cons => rfl

theorem Denotes.readNumeral {n : Int} (h : Denotes r s n) : readNumeral r s = .ok n := by
  cases h with
  | digits sign ds splits some digits within =>
    have hle := (contains_apply r sign _).mp within
    rw [splits.readNumeral, readMagnitude_of_ne_nil some, ← List.append_nil ds,
      readDigits_append digits hle, List.append_nil]
    rfl

theorem Fails.readNumeral {f : NumeralFault} (h : Fails r s f) : readNumeral r s = .error f := by
  cases h with
  | empty nothing => rw [nothing, Text.readNumeral]
  | loneSign sign splits => rw [splits.readNumeral]; rfl
  | nonDigit sign ds c rest splits digits stray within =>
    have hle := (contains_apply r sign _).mp (within ds (List.prefix_refl ds))
    rw [splits.readNumeral, readMagnitude_of_ne_nil (by simp), readDigits_append digits hle,
      readDigits_cons_stray stray]
    rfl
  | overflow sign ds rest splits digits beyond =>
    have hlt := Nat.not_le.mp (mt (contains_apply r sign _).mpr beyond)
    have hne : ds ++ rest ≠ [] := by
      cases ds with
      | nil => exact absurd hlt (Nat.not_lt_zero _)
      | cons => exact List.cons_ne_nil _ _
    rw [splits.readNumeral, readMagnitude_of_ne_nil hne,
      readDigits_beyond digits (Nat.zero_le _) hlt]
    rfl

theorem denotes_or_fails (r : NumeralRange) (s : List Char) :
    (∃ n, Denotes r s n) ∨ ∃ f, Fails r s f := by
  by_cases hs : s = []
  · exact .inr ⟨_, .empty hs⟩
  obtain ⟨sign, body, splits⟩ := exists_splits r hs
  by_cases hb : body = []
  · subst hb
    exact .inr ⟨_, .loneSign sign splits⟩
  rcases digits_cases (sign.limit r) (Nat.zero_le _) body with
    ⟨hd, hle⟩ | ⟨ds, rest, rfl, hd, hlt⟩ | ⟨ds, c, rest, rfl, hd, hc, hle⟩
  · exact .inl ⟨_, .digits sign body splits hb hd ((contains_apply r sign _).mpr hle)⟩
  · exact .inr ⟨_, .overflow sign ds rest splits hd
      (mt (contains_apply r sign _).mp (Nat.not_le.mpr hlt))⟩
  · exact .inr ⟨_, .nonDigit sign ds c rest splits hd hc fun p hp =>
      (contains_apply r sign _).mpr (Nat.le_trans (ofDigitChars_prefix_le hp 0) hle)⟩

theorem readNumeral_eq_ok {n : Int} : readNumeral r s = .ok n ↔ Denotes r s n := by
  refine ⟨fun h => ?_, Denotes.readNumeral⟩
  rcases denotes_or_fails r s with ⟨m, hm⟩ | ⟨f, hf⟩
  · rw [hm.readNumeral] at h
    cases h
    exact hm
  · rw [hf.readNumeral] at h
    cases h

theorem readNumeral_eq_error {f : NumeralFault} :
    readNumeral r s = .error f ↔ Fails r s f := by
  refine ⟨fun h => ?_, Fails.readNumeral⟩
  rcases denotes_or_fails r s with ⟨m, hm⟩ | ⟨g, hg⟩
  · rw [hm.readNumeral] at h
    cases h
  · rw [hg.readNumeral] at h
    cases h
    exact hg

end Numerals

theorem Denotes.contains {r : NumeralRange} {s : List Char} {n : Int} (h : Denotes r s n) :
    r.Contains n := by
  cases h with
  | digits _ _ _ _ _ within => exact within

end Text

namespace ScalarKind

open Text

variable {text : String}

theorem parse_eq_ok {k : ScalarKind} {v : k.Value} :
    k.parse text = .ok v ↔ k.read text = .ok v := by
  rw [parse]
  cases k.read text <;> simp

theorem parse_eq_error {k : ScalarKind} {e : ObjectError} :
    k.parse text = .error e ↔
      ∃ why, k.read text = .error why ∧ e = .parse text k.name why := by
  rw [parse]
  cases k.read text <;> simp [eq_comm]

theorem read_int (text : String) :
    int.read text = match readNumeral .int32 (trim text.toList) with
      | .ok n => .ok (Int32.ofInt n)
      | .error f => .error f.reason :=
  rfl

theorem read_long (text : String) :
    long.read text = match readNumeral .int64 (trim text.toList) with
      | .ok n => .ok (Int64.ofInt n)
      | .error f => .error f.reason :=
  rfl

theorem read_char (text : String) :
    char.read text = match (match readNumeral .word32 (trim text.toList) with
        | .ok n => Except.ok n.toNat
        | .error f => .error f.reason) with
      | .ok n =>
        if h : n.isValidChar then .ok (Char.ofNatAux n h) else .error "not a Unicode scalar value"
      | .error why => .error why :=
  rfl

/-- A kind whose values are the integers of a range is read exactly from their numerals. -/
theorem read_integer {k : ScalarKind} {r : NumeralRange} {value : Int → k.Value}
    {number : k.Value → Int}
    (read : k.read text = match readNumeral r (trim text.toList) with
      | .ok n => .ok (value n)
      | .error f => .error f.reason)
    (number_value : ∀ n, r.Contains n → number (value n) = n)
    (value_number : ∀ v, value (number v) = v) :
    (∀ v, k.parse text = .ok v ↔ Denotes r (trim text.toList) (number v)) ∧
    ∀ e, k.parse text = .error e ↔
      ∃ f, Fails r (trim text.toList) f ∧ e = .parse text k.name f.reason := by
  rcases denotes_or_fails r (trim text.toList) with ⟨n, hn⟩ | ⟨f, hf⟩
  · have hread := hn.readNumeral
    refine ⟨fun v => ?_, fun e => ?_⟩
    · rw [parse_eq_ok, read, hread, ← readNumeral_eq_ok, hread, Except.ok.injEq, Except.ok.injEq]
      refine ⟨fun h => ?_, fun h => ?_⟩
      · rw [← h, number_value n hn.contains]
      · rw [h, value_number]
    · simp [parse_eq_error, read, hread, ← readNumeral_eq_error]
  · have hread := hf.readNumeral
    refine ⟨fun v => ?_, fun e => ?_⟩
    · simp [parse_eq_ok, read, hread, ← readNumeral_eq_ok]
    · simp [parse_eq_error, read, hread, ← readNumeral_eq_error]

theorem parse_int (text : String) :
    (∀ v : Int32, int.parse text = .ok v ↔ Denotes .int32 (trim text.toList) v.toInt) ∧
    ∀ e, int.parse text = .error e ↔
      ∃ f, Fails .int32 (trim text.toList) f ∧ e = .parse text "Int32" f.reason :=
  read_integer (read_int text) (fun _ h => Int32.toInt_ofInt_of_le h.1 (Int.lt_add_one_of_le h.2))
    Int32.ofInt_toInt

theorem parse_long (text : String) :
    (∀ v : Int64, long.parse text = .ok v ↔ Denotes .int64 (trim text.toList) v.toInt) ∧
    ∀ e, long.parse text = .error e ↔
      ∃ f, Fails .int64 (trim text.toList) f ∧ e = .parse text "Int64" f.reason :=
  read_integer (read_long text) (fun _ h => Int64.toInt_ofInt_of_le h.1 (Int.lt_add_one_of_le h.2))
    Int64.ofInt_toInt

/-- Surrogates and the numbers after the last code point. -/
def NoChar (n : Nat) : Prop := 0xD800 ≤ n ∧ n ≤ 0xDFFF ∨ 0x10FFFF < n

theorem noChar_iff {n : Nat} : NoChar n ↔ ¬ n.isValidChar := by
  rw [NoChar, Nat.isValidChar]
  omega

theorem ofNatAux_eq_iff {n : Nat} (h : n.isValidChar) {c : Char} :
    Char.ofNatAux n h = c ↔ (n : Int) = c.toNat := by
  rw [Int.ofNat_inj, ← Char.toNat_inj]
  rfl

theorem read_char_of_error {f : NumeralFault}
    (h : readNumeral .word32 (trim text.toList) = .error f) :
    char.read text = .error f.reason := by
  rw [read_char, h]

theorem read_char_of_ok {n : Nat} (h : readNumeral .word32 (trim text.toList) = .ok (n : Int)) :
    char.read text =
      if hn : n.isValidChar then .ok (Char.ofNatAux n hn)
      else .error "not a Unicode scalar value" := by
  rw [read_char, h]
  rfl

theorem parse_char_ok {c : Char} :
    char.parse text = .ok c ↔ Denotes .word32 (trim text.toList) c.toNat := by
  rw [parse_eq_ok, ← readNumeral_eq_ok]
  cases hread : readNumeral .word32 (trim text.toList) with
  | error f =>
    rw [read_char_of_error hread]
    exact iff_of_false nofun nofun
  | ok z =>
    obtain ⟨n, rfl⟩ := Int.eq_ofNat_of_zero_le (readNumeral_eq_ok.mp hread).contains.1
    rw [read_char_of_ok hread, Except.ok.injEq]
    by_cases hn : n.isValidChar
    · rw [dif_pos hn, Except.ok.injEq, ofNatAux_eq_iff]
    · rw [dif_neg hn]
      exact iff_of_false nofun fun h => hn (Int.ofNat_inj.mp h ▸ c.valid)

theorem parse_char_error {e : ObjectError} :
    char.parse text = .error e ↔
      (∃ f, Fails .word32 (trim text.toList) f ∧ e = .parse text "Char" f.reason) ∨
      ∃ n : Nat, Denotes .word32 (trim text.toList) n ∧ NoChar n ∧
        e = .parse text "Char" "not a Unicode scalar value" := by
  rw [parse_eq_error]
  simp only [← readNumeral_eq_ok, ← readNumeral_eq_error, noChar_iff]
  cases hread : readNumeral .word32 (trim text.toList) with
  | error f =>
    rw [read_char_of_error hread]
    simp [ScalarKind.name]
  | ok z =>
    obtain ⟨n, rfl⟩ := Int.eq_ofNat_of_zero_le (readNumeral_eq_ok.mp hread).contains.1
    have hlone (m : Nat) : Except.ok (ε := NumeralFault) (n : Int) = .ok (m : Int) ↔ n = m := by
      rw [Except.ok.injEq, Int.ofNat_inj]
    simp only [hlone, exists_eq_left', reduceCtorEq, false_and, exists_false, false_or]
    rw [read_char_of_ok hread]
    by_cases hn : n.isValidChar
    · rw [dif_pos hn]
      exact iff_of_false (fun ⟨_, h, _⟩ => nomatch h) fun h => h.1 hn
    · rw [dif_neg hn]
      simp [hn, ScalarKind.name]

/-- What the number parsers answer for one text. -/
structure ParsesNumerals (text : String) (s : List Char) : Prop where
  trimmed : Trimmed text.toList s
  int_ok : ∀ v : Int32, int.parse text = .ok v ↔ Denotes .int32 s v.toInt
  int_error : ∀ e, int.parse text = .error e ↔
    ∃ f, Fails .int32 s f ∧ e = .parse text "Int32" f.reason
  long_ok : ∀ v : Int64, long.parse text = .ok v ↔ Denotes .int64 s v.toInt
  long_error : ∀ e, long.parse text = .error e ↔
    ∃ f, Fails .int64 s f ∧ e = .parse text "Int64" f.reason
  char_ok : ∀ c : Char, char.parse text = .ok c ↔ Denotes .word32 s c.toNat
  char_error : ∀ e, char.parse text = .error e ↔
    (∃ f, Fails .word32 s f ∧ e = .parse text "Char" f.reason) ∨
    ∃ n : Nat, Denotes .word32 s n ∧ NoChar n ∧
      e = .parse text "Char" "not a Unicode scalar value"

/-- Every text is a numeral of the range, or has one first fault; parsing tells which. -/
theorem parse_numerals (text : String) : ParsesNumerals text (trim text.toList) where
  trimmed := trimmed_trim text.toList
  int_ok := (parse_int text).1
  int_error := (parse_int text).2
  long_ok := (parse_long text).1
  long_error := (parse_long text).2
  char_ok := fun _ => parse_char_ok
  char_error := fun _ => parse_char_error

-- The number is beyond the range one digit before the stray character is seen.
example : int.parse " 2147483648x" =
    .error (.parse " 2147483648x" "Int32" "number too large to fit in target type") := by
  rfl

end ScalarKind

end CountedObjects
