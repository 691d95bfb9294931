import Mathlib.Data.List.Basic
import CountedObjects.Double.Reader
import CountedObjects.Proofs.CanonicalText

/-! The grammar of written doubles, and that reading accepts what it spells and nothing else. -/
namespace CountedObjects.Double

open Text (AllDigits digitValue? digitValue?_of_isDigit digitValue?_of_not_isDigit)

inductive OptionalSign : List Char → Bool → Prop
  | absent : OptionalSign [] false
  | plus : OptionalSign ['+'] false
  | minus : OptionalSign ['-'] true

/-- The part of a numeral that scales it, which may be missing. -/
inductive Exponent : List Char → Int → Prop
  | absent : Exponent [] 0
  | scaled {mark : Char} {sign ds : List Char} {negative : Bool} (letter : mark = 'e' ∨ mark = 'E')
      (signed : OptionalSign sign negative) (some : ds ≠ []) (digits : AllDigits ds) :
      Exponent (mark :: (sign ++ ds))
        (if negative then -(Nat.ofDigitChars 10 ds 0 : Int) else Nat.ofDigitChars 10 ds 0)

/-- Digits around an optional point, with the digits alone and how many stand after the point. -/
inductive Mantissa : List Char → List Char → Nat → Prop
  | whole {ds : List Char} (some : ds ≠ []) (digits : AllDigits ds) : Mantissa ds ds 0
  | pointed {whole fraction : List Char} (some : whole ++ fraction ≠ [])
      (digits : AllDigits (whole ++ fraction)) :
      Mantissa (whole ++ '.' :: fraction) (whole ++ fraction) fraction.length

/-- A numeral after its sign. The names are written in any case. -/
inductive SpellsUnsigned (negative : Bool) : List Char → Numeral → Prop
  | nan {word : List Char} (letters : word.map Char.toLower = "nan".toList) :
      SpellsUnsigned negative word .nan
  | infinite {word : List Char} (letters : word.map Char.toLower = "inf".toList ∨
      word.map Char.toLower = "infinity".toList) :
      SpellsUnsigned negative word (.infinite negative)
  | decimal {mantissa ds exponent : List Char} {places : Nat} {e : Int}
      (front : Mantissa mantissa ds places) (back : Exponent exponent e) :
      SpellsUnsigned negative (mantissa ++ exponent)
        (.decimal negative (Nat.ofDigitChars 10 ds 0) (e - places))

inductive Spells : List Char → Numeral → Prop
  | signed {sign body : List Char} {negative : Bool} {n : Numeral}
      (front : OptionalSign sign negative) (back : SpellsUnsigned negative body n) :
      Spells (sign ++ body) n

variable {c : Char} {cs ds rest sign mantissa : List Char} {negative : Bool} {n : Numeral} {e : Int}
  {places : Nat}

theorem isDigit_eq (c : Char) : isDigit c = c.isDigit := by
  cases h : c.isDigit with
  | true => rw [isDigit, digitValue?_of_isDigit h, Option.isSome_some]
  | false => rw [isDigit, digitValue?_of_not_isDigit h, Option.isSome_none]

theorem all_isDigit : ds.all isDigit = true ↔ AllDigits ds := by
  simp only [List.all_eq_true, isDigit_eq, AllDigits]

theorem digitsValue_eq (h : AllDigits ds) : digitsValue ds = Nat.ofDigitChars 10 ds 0 := by
  refine List.foldl_ext _ _ _ fun n c hc => ?_
  rw [digitValue?_of_isDigit (h c hc), Option.getD_some, Nat.mul_comm]

/-- A run of digits goes as far as there are digits. -/
theorem takeWhile_digits (h : AllDigits ds) (hr : ∀ c ∈ rest.head?, c.isDigit = false) :
    (ds ++ rest).takeWhile isDigit = ds := by
  rw [List.takeWhile_append_of_pos (List.all_eq_true.mp (all_isDigit.mpr h))]
  cases rest with
  | nil => rw [List.takeWhile_nil, List.append_nil]
  | cons c cs =>
    have hc : ¬ isDigit c = true := by
      rw [isDigit_eq, hr c rfl]
      exact Bool.false_ne_true
    rw [List.takeWhile_cons_of_neg hc, List.append_nil]

theorem dropWhile_digits (h : AllDigits ds) (hr : ∀ c ∈ rest.head?, c.isDigit = false) :
    (ds ++ rest).dropWhile isDigit = rest := by
  have hsplit := List.takeWhile_append_dropWhile (p := isDigit) (l := ds ++ rest)
  rw [takeWhile_digits h hr] at hsplit
  exact List.append_cancel_left hsplit

theorem takeSign_append (h : OptionalSign sign negative)
    (hr : ∀ c ∈ rest.head?, c ≠ '+' ∧ c ≠ '-') : takeSign (sign ++ rest) = (negative, rest) := by
  cases h with
  | plus => rfl
  | minus => rfl
  | absent =>
    cases rest with
    | nil => rfl
    | cons c cs =>
      obtain ⟨hplus, hminus⟩ := hr c rfl
      refine takeSign.eq_3 _ (fun cs h => hplus ?_) fun cs h => hminus ?_
      · exact (List.cons.inj h).1
      · exact (List.cons.inj h).1

theorem takeSign_split (cs : List Char) :
    ∃ sign, OptionalSign sign (takeSign cs).1 ∧ cs = sign ++ (takeSign cs).2 := by
  fun_cases takeSign cs with
  | case1 cs => exact ⟨_, .plus, rfl⟩
  | case2 cs => exact ⟨_, .minus, rfl⟩
  | case3 cs => exact ⟨_, .absent, rfl⟩

theorem not_sign_of_isDigit (h : c.isDigit = true) : c ≠ '+' ∧ c ≠ '-' := by
  constructor
  · rintro rfl
    cases h
  · rintro rfl
    cases h

theorem AllDigits.head (h : AllDigits ds) : ∀ c ∈ ds.head?, c.isDigit = true :=
  fun c hc => h c (List.mem_of_mem_head? hc)

theorem exponent?_eq_some : exponent? cs = some e ↔ Exponent cs e := by
  constructor
  · intro h
    cases cs with
    | nil =>
      cases h
      exact .absent
    | cons mark cs =>
      simp only [exponent?] at h
      split at h
      · next hmark =>
        obtain ⟨sign, hsign, hcs⟩ := takeSign_split cs
        generalize takeSign cs = front at h hsign hcs
        subst hcs
        split at h
        · next hall =>
          rw [Bool.and_eq_true, Bool.not_eq_true', List.isEmpty_eq_false_iff, all_isDigit] at hall
          rw [digitsValue_eq hall.2] at h
          cases h
          exact .scaled hmark hsign hall.1 hall.2
        · cases h
      · cases h
  · intro h
    cases h with
    | absent => rfl
    | scaled letter signed some digits =>
      simp only [exponent?, if_pos letter,
        takeSign_append signed fun c hc => not_sign_of_isDigit (AllDigits.head digits c hc),
        List.isEmpty_eq_false_iff.mpr some, all_isDigit.mpr digits, digitsValue_eq digits]
      rfl

theorem Exponent.head (h : Exponent cs e) : ∀ c ∈ cs.head?, c = 'e' ∨ c = 'E' := by
  intro c hc
  cases h with
  | absent => cases hc
  | scaled letter _ _ _ =>
    cases hc
    exact letter

theorem Exponent.head_not_digit (h : Exponent cs e) : ∀ c ∈ cs.head?, c.isDigit = false := by
  intro c hc
  rcases h.head c hc with rfl | rfl <;> rfl

theorem allDigits_takeWhile (cs : List Char) : AllDigits (cs.takeWhile isDigit) :=
  all_isDigit.mp (List.all_takeWhile ..)

theorem allDigits_append {front back : List Char} (hf : AllDigits front) (hb : AllDigits back) :
    AllDigits (front ++ back) :=
  List.forall_mem_append.mpr ⟨hf, hb⟩

theorem decimal?_append (hm : Mantissa mantissa ds places) (he : Exponent rest e) :
    decimal? negative (mantissa ++ rest) =
      some (.decimal negative (Nat.ofDigitChars 10 ds 0) (e - places)) := by
  cases hm with
  | whole some digits =>
    have hpoint : ∀ r, rest ≠ '.' :: r := by
      rintro r rfl
      rcases he.head '.' rfl with h | h <;> cases h
    simp only [decimal?, takeWhile_digits digits he.head_not_digit,
      dropWhile_digits digits he.head_not_digit]
    have hsome : ¬ (ds.isEmpty && ([] : List Char).isEmpty) = true := by
      rw [List.isEmpty_eq_false_iff.mpr some]
      exact Bool.false_ne_true
    rw [if_neg hsome, exponent?_eq_some.mpr he, List.append_nil, digitsValue_eq digits]
    rfl
  | pointed some digits =>
    next whole fraction =>
    obtain ⟨hwhole, hfraction⟩ := List.forall_mem_append.mp digits
    have hstop : ∀ c ∈ ('.' :: (fraction ++ rest)).head?, c.isDigit = false := by
      rintro c ⟨⟩
      rfl
    have hsome : ¬ (whole.isEmpty && fraction.isEmpty) = true := by
      rw [Bool.and_eq_true, List.isEmpty_iff, List.isEmpty_iff, ← List.append_eq_nil_iff]
      exact some
    rw [List.append_assoc, List.cons_append]
    simp only [decimal?, takeWhile_digits hwhole hstop, dropWhile_digits hwhole hstop,
      takeWhile_digits hfraction he.head_not_digit, dropWhile_digits hfraction he.head_not_digit]
    rw [if_neg hsome, exponent?_eq_some.mpr he, digitsValue_eq digits]
    rfl

/-- What follows from a result, whether or not there was a point. -/
theorem of_scaled {whole fraction : List Char} {f : Int → Numeral}
    (h : (if (whole.isEmpty && fraction.isEmpty) = true then none
      else (exponent? rest).map f) = some n) :
    whole ++ fraction ≠ [] ∧ ∃ e, Exponent rest e ∧ f e = n := by
  split at h
  · cases h
  · next hsome =>
    rw [Bool.and_eq_true, List.isEmpty_iff, List.isEmpty_iff, ← List.append_eq_nil_iff] at hsome
    obtain ⟨e, he, hn⟩ := Option.map_eq_some_iff.mp h
    exact ⟨hsome, e, exponent?_eq_some.mp he, hn⟩

theorem spells_of_decimal? (h : decimal? negative cs = some n) : SpellsUnsigned negative cs n := by
  have hwhole := allDigits_takeWhile cs
  have hcs := List.takeWhile_append_dropWhile (p := isDigit) (l := cs)
  simp only [decimal?] at h
  generalize cs.takeWhile isDigit = whole at h hwhole hcs
  generalize cs.dropWhile isDigit = rest at h hcs
  subst hcs
  split at h
  · next r =>
    obtain ⟨hsome, e, he, rfl⟩ := of_scaled h
    have hdigits := allDigits_append hwhole (allDigits_takeWhile r)
    have hspell : SpellsUnsigned negative _ _ := .decimal (.pointed hsome hdigits) he
    rw [List.append_assoc, List.cons_append, List.takeWhile_append_dropWhile] at hspell
    rwa [digitsValue_eq hdigits]
  · obtain ⟨hsome, e, he, rfl⟩ := of_scaled h
    rw [List.append_nil] at hsome ⊢
    rw [digitsValue_eq hwhole]
    exact .decimal (.whole hsome hwhole) he

theorem Mantissa.front (h : Mantissa mantissa ds places) :
    ∃ c cs, mantissa = c :: cs ∧ (c.isDigit = true ∨ c = '.') := by
  cases h with
  | whole some digits =>
    obtain ⟨c, cs, rfl⟩ := List.exists_cons_of_ne_nil some
    exact ⟨c, cs, rfl, .inl (digits c (List.mem_cons_self ..))⟩
  | pointed some digits =>
    next whole fraction =>
    cases whole with
    | nil => exact ⟨'.', fraction, rfl, .inr rfl⟩
    | cons c cs => exact ⟨c, _, rfl, .inl (digits c (List.mem_cons_self ..))⟩

theorem isUpper_iff (c : Char) : c.isUpper = true ↔ 65 ≤ c.toNat ∧ c.toNat ≤ 90 :=
  decide_eq_true_iff.trans (and_congr UInt32.le_iff_toNat_le UInt32.le_iff_toNat_le)

theorem toLower_of_not_isUpper (h : ¬ c.isUpper = true) : c.toLower = c :=
  dif_neg fun hrange => h (decide_eq_true hrange)

theorem toLower_of_digit_or_point (h : c.isDigit = true ∨ c = '.') : c.toLower = c := by
  refine toLower_of_not_isUpper fun hupper => ?_
  rcases h with h | rfl
  · have h9 : '9'.toNat = 57 := rfl
    have := (Char.isDigit_iff_toNat.mp h).2
    have := (isUpper_iff c).mp hupper
    omega
  · cases hupper

theorem ne_name_of_front (h : c.isDigit = true ∨ c = '.') {a : Char} {l : List Char}
    (ha : a.isDigit = false ∧ a ≠ '.') : (c :: cs).map Char.toLower ≠ a :: l := by
  intro hmap
  have hc : c.toLower = a := (List.cons.inj hmap).1
  rw [toLower_of_digit_or_point h] at hc
  subst hc
  rcases h with h | h
  · exact Bool.false_ne_true (ha.1.symm.trans h)
  · exact ha.2 h

/-- A numeral starts with a letter of a name, a digit or a point. -/
theorem SpellsUnsigned.front (h : SpellsUnsigned negative cs n) :
    ∃ c rest, cs = c :: rest ∧ c ≠ '+' ∧ c ≠ '-' := by
  have hname : ∀ word a l, a ≠ '+' ∧ a ≠ '-' → word.map Char.toLower = a :: l →
      ∃ c rest, word = c :: rest ∧ c ≠ '+' ∧ c ≠ '-' := by
    intro word a l ha hword
    obtain ⟨c, rest, rfl, rfl, -⟩ := List.map_eq_cons_iff.mp hword
    refine ⟨c, rest, rfl, ?_, ?_⟩
    · rintro rfl
      exact ha.1 rfl
    · rintro rfl
      exact ha.2 rfl
  cases h with
  | nan letters => exact hname _ _ _ (by decide) letters
  | infinite letters =>
    rcases letters with letters | letters
    · exact hname _ _ _ (by decide) letters
    · exact hname _ _ _ (by decide) letters
  | decimal front _ =>
    obtain ⟨c, cs, rfl, hc⟩ := front.front
    refine ⟨c, _, rfl, ?_⟩
    rcases hc with hc | rfl
    · exact not_sign_of_isDigit hc
    · decide

theorem ofList_eq_iff {t : String} : String.ofList cs = t ↔ cs = t.toList := by
  rw [← String.toList_inj, String.toList_ofList]

theorem unsigned?_eq_some : unsigned? negative cs = some n ↔ SpellsUnsigned negative cs n := by
  simp only [unsigned?, ofList_eq_iff]
  constructor
  · intro h
    split at h
    · next letters =>
      cases h
      exact .infinite letters
    · split at h
      · next letters =>
        cases h
        exact .nan letters
      · exact spells_of_decimal? h
  · intro h
    cases h with
    | nan letters =>
      rw [letters]
      rfl
    | infinite letters => rw [if_pos letters]
    | decimal front back =>
      have hdecimal : decimal? negative _ = some _ := decimal?_append front back
      obtain ⟨c, cs, rfl, hc⟩ := front.front
      rw [if_neg, if_neg, hdecimal]
      · exact ne_name_of_front hc (by decide)
      · rintro (letters | letters)
        · exact ne_name_of_front hc (by decide) letters
        · exact ne_name_of_front hc (by decide) letters

theorem ofChars_eq_ok : Numeral.ofChars cs = .ok n ↔ Spells cs n := by
  constructor
  · intro h
    obtain ⟨sign, hsign, hcs⟩ := takeSign_split cs
    simp only [Numeral.ofChars] at h
    generalize takeSign cs = front at h hsign hcs
    subst hcs
    split at h
    · cases h
    · split at h
      · next hn =>
        cases h
        exact .signed hsign (unsigned?_eq_some.mp hn)
      · cases h
  · rintro ⟨front, back⟩
    next sign body negative =>
    obtain ⟨c, rest, rfl, hc⟩ := back.front
    have hsome : (sign ++ c :: rest).isEmpty = false := by
      rw [List.isEmpty_eq_false_iff]
      exact List.append_ne_nil_of_right_ne_nil _ (List.cons_ne_nil _ _)
    have hsign : takeSign (sign ++ c :: rest) = (negative, c :: rest) := by
      refine takeSign_append front ?_
      rintro c ⟨⟩
      exact hc
    simp only [Numeral.ofChars, hsome, hsign, unsigned?_eq_some.mpr back]
    rfl

theorem OptionalSign.not_isBlank (h : OptionalSign cs negative) :
    ∀ c ∈ cs, Text.isBlank c = false := by
  cases h with
  | absent => exact List.forall_mem_nil _
  | plus => exact List.forall_mem_singleton.mpr rfl
  | minus => exact List.forall_mem_singleton.mpr rfl

theorem not_isBlank_of_allDigits (h : AllDigits ds) : ∀ c ∈ ds, Text.isBlank c = false :=
  fun c hc => Text.isBlank_of_isDigit (h c hc)

theorem Mantissa.not_isBlank (h : Mantissa mantissa ds places) :
    ∀ c ∈ mantissa, Text.isBlank c = false := by
  cases h with
  | whole _ digits => exact not_isBlank_of_allDigits digits
  | pointed _ digits =>
    obtain ⟨hwhole, hfraction⟩ := List.forall_mem_append.mp (not_isBlank_of_allDigits digits)
    exact List.forall_mem_append.mpr ⟨hwhole, List.forall_mem_cons.mpr ⟨rfl, hfraction⟩⟩

theorem Exponent.not_isBlank (h : Exponent cs e) : ∀ c ∈ cs, Text.isBlank c = false := by
  cases h with
  | absent => exact List.forall_mem_nil _
  | scaled letter signed _ digits =>
    refine List.forall_mem_cons.mpr ⟨?_, ?_⟩
    · rcases letter with rfl | rfl <;> rfl
    · exact List.forall_mem_append.mpr ⟨signed.not_isBlank, not_isBlank_of_allDigits digits⟩

/-- A letter in either case is no blank. -/
theorem not_isBlank_of_toLower (h : Text.isBlank c.toLower = false) : Text.isBlank c = false := by
  by_cases hupper : c.isUpper = true
  · have := (isUpper_iff c).mp hupper
    simp only [Text.isBlank, Bool.or_eq_false_iff, Bool.and_eq_false_iff, beq_eq_false_iff_ne,
      decide_eq_false_iff_not]
    omega
  · rwa [toLower_of_not_isUpper hupper] at h

/-- No blank is part of a numeral. -/
theorem Spells.not_isBlank (h : Spells cs n) : ∀ c ∈ cs, Text.isBlank c = false := by
  obtain ⟨front, back⟩ := h
  refine List.forall_mem_append.mpr ⟨front.not_isBlank, ?_⟩
  have hname : ∀ (word name : List Char), (∀ a ∈ name, Text.isBlank a = false) →
      word.map Char.toLower = name → ∀ c ∈ word, Text.isBlank c = false := by
    rintro word name hletters rfl c hc
    exact not_isBlank_of_toLower (hletters _ (List.mem_map_of_mem hc))
  cases back with
  | nan letters => exact hname _ "nan".toList (by simp [Text.isBlank]) letters
  | infinite letters =>
    rcases letters with letters | letters
    · exact hname _ "inf".toList (by simp [Text.isBlank]) letters
    · exact hname _ "infinity".toList (by simp [Text.isBlank]) letters
  | decimal mantissa exponent =>
    exact List.forall_mem_append.mpr ⟨mantissa.not_isBlank, exponent.not_isBlank⟩

/-- What is not spelled is empty or invalid. -/
theorem ofChars_eq_error (h : ¬ ∃ n, Spells cs n) :
    Numeral.ofChars cs = .error (if cs = [] then .empty else .invalid) := by
  cases hread : Numeral.ofChars cs with
  | ok n => exact absurd ⟨n, ofChars_eq_ok.mp hread⟩ h
  | error f =>
    simp only [Numeral.ofChars] at hread
    split at hread
    · next hempty =>
      cases hread
      rw [if_pos (List.isEmpty_iff.mp hempty)]
    · next hsome =>
      rw [List.isEmpty_iff] at hsome
      split at hread
      · cases hread
      · cases hread
        rw [if_neg hsome]

end CountedObjects.Double
