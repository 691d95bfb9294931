import CountedObjects.Proofs.Digits

/-! Truth values, characters and integers are written in one canonical way, and reading inverts
writing in both directions. -/
namespace CountedObjects

namespace Text

variable {r : NumeralRange} {s before after : List Char} {n : Int} {c : Char}

def Blank (cs : List Char) : Prop := ∀ c ∈ cs, isBlank c = true

theorem isBlank_of_isDigit (h : c.isDigit = true) : isBlank c = false := by
  have h0 : '0'.toNat = 48 := rfl
  have h9 : '9'.toNat = 57 := rfl
  have hc := Char.isDigit_iff_toNat.mp h
  simp only [isBlank, Bool.or_eq_false_iff, Bool.and_eq_false_iff, beq_eq_false_iff_ne,
    decide_eq_false_iff_not]
  omega

theorem trimLeft_append (hb : Blank before) (hs : ∀ c ∈ s, isBlank c = false) (hn : s ≠ []) :
    trimLeft (before ++ s ++ after) = s ++ after := by
  obtain ⟨c, cs, rfl⟩ := List.exists_cons_of_ne_nil hn
  rw [trimLeft, List.append_assoc, List.dropWhile_append_of_pos hb, List.cons_append,
    List.dropWhile_cons_of_neg (by rw [hs c (List.mem_cons_self ..)]; exact Bool.false_ne_true)]

/-- Blanks around a text without blanks are all that is taken away. -/
theorem trim_append (hb : Blank before) (ha : Blank after) (hs : ∀ c ∈ s, isBlank c = false)
    (hn : s ≠ []) : trim (before ++ s ++ after) = s := by
  have ha' : Blank after.reverse := fun c hc => ha c (List.mem_reverse.mp hc)
  have hs' : ∀ c ∈ s.reverse, isBlank c = false := fun c hc => hs c (List.mem_reverse.mp hc)
  have hback : trimLeft (after.reverse ++ s.reverse ++ []) = s.reverse ++ [] :=
    trimLeft_append ha' hs' (by simpa using hn)
  rw [List.append_nil, List.append_nil] at hback
  rw [trim, trimLeft_append hb hs hn, trimRight, List.reverse_append, hback, List.reverse_reverse]

theorem trim_eq_self (hs : ∀ c ∈ s, isBlank c = false) : trim s = s := by
  by_cases hn : s = []
  · subst hn
    rfl
  · have h := trim_append (List.forall_mem_nil _) (List.forall_mem_nil _) hs hn
    rwa [List.append_nil, List.nil_append] at h

/-- Digits without a superfluous zero in front, with a minus sign only before a number that is not
zero. -/
inductive Canonical : List Char → Prop
  | natural {ds : List Char} (plain : Plain ds) : Canonical ds
  | negative {ds : List Char} (plain : Plain ds) (nonzero : ds ≠ ['0']) : Canonical ('-' :: ds)

theorem numeral_neg {v : Nat} (hv : 0 < v) : numeral (-(v : Int)) = '-' :: digits v := by
  obtain ⟨m, rfl⟩ : ∃ m, v = m + 1 := ⟨v - 1, by omega⟩
  rfl

theorem canonical_numeral (n : Int) : Canonical (numeral n) := by
  cases n with
  | ofNat m => exact .natural (plain_digits m)
  | negSucc m =>
    refine .negative (plain_digits (m + 1)) fun h => ?_
    have := digits_injective (h.trans digits_zero.symm)
    omega

theorem Canonical.ne_nil (h : Canonical s) : s ≠ [] := by
  cases h with
  | natural plain => exact plain.some
  | negative _ _ => exact List.cons_ne_nil _ _

theorem Canonical.not_isBlank (h : Canonical s) : ∀ c ∈ s, isBlank c = false := by
  cases h with
  | natural plain => exact fun c hc => isBlank_of_isDigit (plain.digits c hc)
  | negative plain _ =>
    exact List.forall_mem_cons.mpr ⟨rfl, fun c hc => isBlank_of_isDigit (plain.digits c hc)⟩

theorem splits_digits (r : NumeralRange) (m : Nat) : Splits r (digits m) .plus (digits m) := by
  have hdigits := allDigits_digits m
  obtain ⟨c, cs, h⟩ := List.exists_cons_of_ne_nil (digits_ne_nil m)
  rw [h] at hdigits ⊢
  have hc : c.isDigit = true := hdigits c (List.mem_cons_self ..)
  refine .unsigned c cs ?_ ?_
  · rintro rfl
    cases hc
  · rintro rfl
    cases hc

/-- A number of the range is what its numeral denotes. -/
theorem denotes_numeral (h : r.Contains n) : Denotes r (numeral n) n := by
  cases n with
  | ofNat m =>
    have hd := Denotes.digits (r := r) .plus (digits m) (splits_digits r m) (digits_ne_nil m)
      (allDigits_digits m)
    rw [ofDigitChars_digits] at hd
    exact hd h
  | negSucc m =>
    have hb : r.below ≠ 0 := by
      have := h.1
      omega
    have hd := Denotes.digits (r := r) .minus (digits (m + 1)) (.minus _ hb)
      (digits_ne_nil (m + 1)) (allDigits_digits (m + 1))
    rw [ofDigitChars_digits] at hd
    exact hd h

/-- A canonical text is the numeral of the number it denotes. -/
theorem Denotes.numeral_eq (h : Denotes r s n) (hs : Canonical s) : numeral n = s := by
  cases h with
  | digits sign ds splits _ digits _ =>
    have hminus : '-'.isDigit ≠ true := by decide
    cases splits with
    | plus =>
      cases hs with
      | natural plain =>
        have := plain.digits '+' (List.mem_cons_self ..)
        contradiction
    | minus _ _ =>
      cases hs with
      | natural plain => exact absurd (plain.digits '-' (List.mem_cons_self ..)) hminus
      | negative plain nonzero =>
        have hpos : 0 < Nat.ofDigitChars 10 ds 0 := by
          by_contra hzero
          have hds := plain.digits_ofDigitChars
          rw [show Nat.ofDigitChars 10 ds 0 = 0 by omega, digits_zero] at hds
          exact nonzero hds.symm
        rw [Sign.apply, numeral_neg hpos, plain.digits_ofDigitChars]
    | unsigned c cs _ _ =>
      cases hs with
      | natural plain => exact plain.digits_ofDigitChars
      | negative _ _ => exact absurd (digits '-' (List.mem_cons_self ..)) hminus

end Text

namespace ScalarKind

open Text

/-- Reading and writing are inverse to each other between the values of a kind and the canonical
texts. -/
structure OneText (k : ScalarKind) (canonical : String → Prop) : Prop where
  parse_text : ∀ v, k.parse (k.wrap v).text = .ok v
  canonical_text : ∀ v, canonical (k.wrap v).text
  text_parse : ∀ t v, canonical t → k.parse t = .ok v → (k.wrap v).text = t
  text_injective : ∀ v w, (k.wrap v).text = (k.wrap w).text → v = w
  unique_text : ∀ v, ∃! t, canonical t ∧ k.parse t = .ok v

/-- Blanks around a written value do not matter. -/
def IgnoresBlanks (k : ScalarKind) : Prop :=
  ∀ v before after, Blank before.toList → Blank after.toList →
    k.parse (before ++ (k.wrap v).text ++ after) = .ok v

/-- The texts of the two truth values. -/
def IsTruth (t : String) : Prop := t = "True" ∨ t = "False"

def IsNumeral (t : String) : Prop := Canonical t.toList

variable {k : ScalarKind} {canonical : String → Prop}

/-- What is left follows once reading inverts writing and writing inverts reading. -/
theorem OneText.of_inverse (parse_text : ∀ v, k.parse (k.wrap v).text = .ok v)
    (canonical_text : ∀ v, canonical (k.wrap v).text)
    (text_parse : ∀ t v, canonical t → k.parse t = .ok v → (k.wrap v).text = t) :
    k.OneText canonical where
  parse_text := parse_text
  canonical_text := canonical_text
  text_parse := text_parse
  text_injective v w h := by
    have hv := parse_text v
    rw [h, parse_text w] at hv
    exact (Except.ok.inj hv).symm
  unique_text v :=
    ⟨(k.wrap v).text, ⟨canonical_text v, parse_text v⟩, fun t ht => (text_parse t v ht.1 ht.2).symm⟩

theorem oneText_bool : bool.OneText IsTruth := by
  refine .of_inverse (fun v => ?_) (fun v => ?_) fun t v ht hv => ?_
  · cases v <;> rfl
  · cases v
    · exact .inr rfl
    · exact .inl rfl
  · rcases ht with rfl | rfl
    · cases hv
      rfl
    · cases hv
      rfl

/-- A kind whose values are written as numbers of a range and read from what denotes them. -/
theorem parse_of_number (r : NumeralRange) (number : k.Value → Int)
    (text : ∀ v, (k.wrap v).text = numeralText (number v))
    (contains : ∀ v, r.Contains (number v))
    (parse : ∀ t v, k.parse t = .ok v ↔ Denotes r (trim t.toList) (number v)) :
    k.OneText IsNumeral ∧ k.IgnoresBlanks := by
  have padded : k.IgnoresBlanks := by
    intro v before after hb ha
    rw [parse, text, numeralText, String.toList_append, String.toList_append, String.toList_ofList,
      trim_append hb ha (canonical_numeral _).not_isBlank (canonical_numeral _).ne_nil]
    exact denotes_numeral (contains v)
  refine ⟨.of_inverse (fun v => ?_) (fun v => ?_) fun t v ht hv => ?_, padded⟩
  · have h := padded v "" "" (List.forall_mem_nil _) (List.forall_mem_nil _)
    rwa [String.append_empty, String.empty_append] at h
  · rw [IsNumeral, text, numeralText, String.toList_ofList]
    exact canonical_numeral _
  · rw [parse, trim_eq_self ht.not_isBlank] at hv
    rw [text, numeralText, hv.numeral_eq ht, String.ofList_toList]

theorem oneText_char : char.OneText IsNumeral ∧ char.IgnoresBlanks := by
  refine parse_of_number .word32 (fun c : Char => (c.toNat : Int)) (fun _ => rfl) (fun c => ?_)
    fun _ _ => parse_char_ok
  have hc : c.toNat.isValidChar := c.valid
  rw [Nat.isValidChar] at hc
  constructor
  · exact Int.natCast_nonneg _
  · show (c.toNat : Int) ≤ 0xffffffff
    omega

theorem oneText_int : int.OneText IsNumeral ∧ int.IgnoresBlanks :=
  parse_of_number .int32 Int32.toInt (fun _ => rfl)
    (fun n => ⟨n.le_toInt, Int.le_of_lt_add_one n.toInt_lt⟩) fun t => (parse_int t).1

theorem oneText_long : long.OneText IsNumeral ∧ long.IgnoresBlanks :=
  parse_of_number .int64 Int64.toInt (fun _ => rfl)
    (fun n => ⟨n.le_toInt, Int.le_of_lt_add_one n.toInt_lt⟩) fun t => (parse_long t).1

/-- Each value has one canonical text, which is the one it is written with. -/
theorem parse_text_inverse :
    bool.OneText IsTruth ∧ (char.OneText IsNumeral ∧ char.IgnoresBlanks) ∧
      (int.OneText IsNumeral ∧ int.IgnoresBlanks) ∧ long.OneText IsNumeral ∧ long.IgnoresBlanks :=
  ⟨oneText_bool, oneText_char, oneText_int, oneText_long⟩

-- The least value has no positive counterpart of its kind.
example : int.parse "\t-2147483648\n" = .ok Int32.minValue := by rfl

end ScalarKind

end CountedObjects
