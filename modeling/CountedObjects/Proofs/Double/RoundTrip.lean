import CountedObjects.Double.Written
import CountedObjects.Proofs.Double.FewestDigits

/-! The text of a double spells a numeral that is rounded to the double again. -/
namespace CountedObjects

namespace Double

open Text (AllDigits)

variable {s : Bool} {l : Layout} {ds cs : List Char} {mark : Char} {e : Int} {q : ℚ} {x : Double}
  {mantissa exponent : List Char} {places : Nat}

/-- A text without sign spells the number `q` as a decimal. -/
def SpellsNumber (s : Bool) (cs : List Char) (q : ℚ) : Prop :=
  ∃ d e, SpellsUnsigned s cs (.decimal s d e) ∧ (d : ℚ) * 10 ^ e = q

theorem exponent_numeral (letter : mark = 'e' ∨ mark = 'E') (z : Int) :
    Exponent (mark :: Text.numeral z) z := by
  cases z with
  | ofNat m =>
    have h := Exponent.scaled letter .absent (Text.digits_ne_nil m) (Text.allDigits_digits m)
    rwa [Text.ofDigitChars_digits, List.nil_append] at h
  | negSucc m =>
    have h := Exponent.scaled letter .minus (Text.digits_ne_nil (m + 1))
      (Text.allDigits_digits (m + 1))
    rwa [Text.ofDigitChars_digits] at h

theorem Mantissa.spellsNumber (hm : Mantissa mantissa ds places) (he : Exponent exponent e) :
    SpellsNumber s (mantissa ++ exponent) (Nat.ofDigitChars 10 ds 0 * 10 ^ (e - places)) :=
  ⟨_, _, .decimal hm he, rfl⟩

theorem allDigits_zeros (j : Nat) : AllDigits (List.replicate j '0') := by
  intro c hc
  rw [List.eq_of_mem_replicate hc]
  rfl

/-- Digits with a point inside them. -/
theorem mantissa_split (hn : ds ≠ []) (hd : AllDigits ds) (p : Nat) :
    Mantissa (ds.take p ++ '.' :: ds.drop p) ds (ds.length - p) := by
  have hds : ds.take p ++ ds.drop p = ds := List.take_append_drop p ds
  have h : Mantissa (ds.take p ++ '.' :: ds.drop p) (ds.take p ++ ds.drop p) (ds.drop p).length :=
    .pointed (by rwa [hds]) (by rwa [hds])
  rwa [hds, List.length_drop] at h

/-- A zero before the point. -/
theorem mantissa_below_one (hd : AllDigits ds) :
    Mantissa ('0' :: '.' :: ds) ('0' :: ds) ds.length := by
  have h : Mantissa (['0'] ++ '.' :: ds) (['0'] ++ ds) ds.length :=
    .pointed (by simp) (allDigits_append (allDigits_zeros 1) hd)
  exact h

theorem spellsNumber_scientific (letter : l.exponentMark = 'e' ∨ l.exponentMark = 'E')
    (hn : ds ≠ []) (hd : AllDigits ds) (power : Int) :
    SpellsNumber s (scientific l ds power)
      (Nat.ofDigitChars 10 ds 0 * 10 ^ (power - (ds.length - 1 : Nat))) := by
  have he := exponent_numeral letter power
  rw [scientific]
  split
  · next hone =>
    have hds : ds.take 1 = ds := by
      rw [List.isEmpty_iff, List.drop_eq_nil_iff] at hone
      exact List.take_of_length_le hone
    have hlen : ds.length - 1 = 0 := by
      rw [List.isEmpty_iff, List.drop_eq_nil_iff] at hone
      omega
    rw [List.append_nil, hds, hlen]
    exact (Mantissa.whole hn hd).spellsNumber he
  · exact (mantissa_split hn hd 1).spellsNumber he

/-- Digits that are filled up to the point. -/
theorem spellsNumber_whole (hd : AllDigits ds) (j : Nat) :
    SpellsNumber s (ds ++ List.replicate j '0' ++ ['.', '0'])
      (Nat.ofDigitChars 10 ds 0 * 10 ^ (j : ℤ)) := by
  have hm : Mantissa (ds ++ List.replicate j '0' ++ ['.', '0'])
      (ds ++ List.replicate j '0' ++ ['0']) 1 := by
    refine .pointed (by simp) ?_
    exact allDigits_append (allDigits_append hd (allDigits_zeros j)) (allDigits_zeros 1)
  have h := hm.spellsNumber (s := s) .absent
  have hvalue : Nat.ofDigitChars 10 (ds ++ List.replicate j '0' ++ ['0']) 0 =
      10 * (10 ^ j * Nat.ofDigitChars 10 ds 0) := by
    rw [Nat.ofDigitChars_append, Nat.ofDigitChars_append, Nat.ofDigitChars_replicate_zero]
    rfl
  have hscale : ((10 * (10 ^ j * Nat.ofDigitChars 10 ds 0) : ℕ) : ℚ) * 10 ^ (0 - ((1 : ℕ) : ℤ)) =
      Nat.ofDigitChars 10 ds 0 * 10 ^ (j : ℤ) := by
    push_cast
    field_simp
    norm_num
    exact mul_comm _ _
  rwa [hvalue, List.append_nil, hscale] at h

theorem spellsNumber_inside (hn : ds ≠ []) (hd : AllDigits ds) (p : Nat) :
    SpellsNumber s (ds.take p ++ '.' :: ds.drop p)
      (Nat.ofDigitChars 10 ds 0 * 10 ^ (0 - ((ds.length - p : ℕ) : ℤ))) := by
  have h := (mantissa_split hn hd p).spellsNumber (s := s) .absent
  rwa [List.append_nil] at h

/-- Digits that are filled up from the point on. -/
theorem spellsNumber_below_one (hd : AllDigits ds) (j : Nat) :
    SpellsNumber s ('0' :: '.' :: (List.replicate j '0' ++ ds))
      (Nat.ofDigitChars 10 ds 0 * 10 ^ (0 - ((j + ds.length : ℕ) : ℤ))) := by
  have hm := mantissa_below_one (allDigits_append (allDigits_zeros j) hd)
  have h := hm.spellsNumber (s := s) .absent
  have hvalue : Nat.ofDigitChars 10 ('0' :: (List.replicate j '0' ++ ds)) 0 =
      Nat.ofDigitChars 10 ds 0 := by
    rw [← List.cons_append, ← List.replicate_succ, Nat.ofDigitChars_append,
      Nat.ofDigitChars_replicate_zero, Nat.mul_zero]
  rwa [hvalue, List.append_nil, List.length_append, List.length_replicate] at h

/-- The digits are written with the point at the place that the exponent tells. -/
theorem spellsNumber_positional (letter : l.exponentMark = 'e' ∨ l.exponentMark = 'E')
    (hn : ds ≠ []) (hd : AllDigits ds) (e : Int) :
    SpellsNumber s (positional l ds e) (Nat.ofDigitChars 10 ds 0 * 10 ^ e) := by
  have hlen : 0 < ds.length := List.length_pos_of_ne_nil hn
  simp only [positional]
  split_ifs with hwhole hinside hsmall
  · obtain ⟨j, rfl⟩ := Int.eq_ofNat_of_zero_le hwhole.1
    exact spellsNumber_whole hd j
  · have hplaces : 0 - ((ds.length - ((ds.length : Int) + e).toNat : ℕ) : ℤ) = e := by omega
    have h := spellsNumber_inside (s := s) hn hd ((ds.length : Int) + e).toNat
    rwa [hplaces] at h
  · have hplaces : 0 - (((-(ds.length + e)).toNat + ds.length : ℕ) : ℤ) = e := by omega
    have h := spellsNumber_below_one (s := s) hd (-(ds.length + e)).toNat
    rwa [hplaces] at h
  · have hplaces : (ds.length : ℤ) + e - 1 - ((ds.length - 1 : ℕ) : ℤ) = e := by omega
    have h := spellsNumber_scientific (s := s) letter hn hd (ds.length + e - 1)
    rwa [hplaces] at h

theorem spellsNumber_write (s : Bool) (d : Decimal) : SpellsNumber s (d.write layout) d.value := by
  have h := spellsNumber_positional (s := s) (l := layout) (.inl rfl) (Text.digits_ne_nil d.digits)
    (Text.allDigits_digits d.digits) d.exponent
  rwa [Text.ofDigitChars_digits] at h

/-- A text that is spelled is read as the numeral is rounded. -/
theorem parse_of_spells {text : String} {n : Numeral} (h : Spells text.toList n) :
    ScalarKind.double.parse text = .ok n.round := by
  rw [ScalarKind.parse_double_eq, Text.trim_eq_self h.not_isBlank, ofChars_eq_ok.mpr h]

theorem spells_signed {n : Numeral} (h : SpellsUnsigned s cs n) : Spells (signed s cs) n := by
  cases s with
  | false => exact .signed .absent h
  | true => exact .signed .minus h

theorem parse_of_write {n : Numeral} (hwrite : x.write = signed s cs) (h : SpellsUnsigned s cs n) :
    ScalarKind.double.parse (Scalar.double x).text = .ok n.round := by
  refine parse_of_spells ?_
  rw [Scalar.text, text, String.toList_ofList, hwrite]
  exact spells_signed h

theorem write_finite (s : Bool) {k m : Nat} (h : Filled k m) (hm : 0 < m)
    (hlt : k * fractions + m < infinityMagnitude) :
    (ofMagnitude s (k * fractions + m)).write =
      signed s ((shortest m ((k : ℤ) - 1074)).write layout) := by
  obtain ⟨n, rfl⟩ := Nat.exists_eq_succ_of_ne_zero hm.ne'
  rw [write, datum_ofMagnitude s h hlt]
  rfl

/-- A finite double is written as a decimal that is rounded to it. -/
theorem parse_text_finite (s : Bool) {k m : Nat} (h : Filled k m)
    (hlt : k * fractions + m < infinityMagnitude) :
    ScalarKind.double.parse (Scalar.double (ofMagnitude s (k * fractions + m))).text =
      .ok (ofMagnitude s (k * fractions + m)) := by
  rcases Nat.eq_zero_or_pos m with rfl | hm
  · have hk : k = 0 := h.full.resolve_right (by decide)
    subst hk
    have hwrite : (ofMagnitude s (0 * fractions + 0)).write = signed s "0.0".toList := by
      rw [write, datum_ofMagnitude s h hlt]
      rfl
    have hzero : Mantissa ("0.0".toList) ['0', '0'] 1 := mantissa_below_one (allDigits_zeros 1)
    have hspells : SpellsUnsigned s ("0.0".toList ++ []) _ := .decimal hzero .absent
    rw [parse_of_write hwrite hspells]
    rfl
  · obtain ⟨d, e, hspells, hvalue⟩ := spellsNumber_write s (shortest m (k - 1074))
    have hnear := nearest_shortest h hm
    rw [parse_of_write (write_finite s h hm hlt) hspells, Numeral.round]
    have hx := roundsTo_of_nearest s (by positivity) (hvalue ▸ hnear)
    rw [Nat.min_eq_right hlt.le] at hx
    rw [(roundsTo_ofDecimal s d e).unique hx]

/-- How a double is written, and what parsing its text gives. -/
structure RoundTrips (x : Double) : Prop where
  written : ∀ s m e, x.datum = .finite s m e → 0 < m →
    ∃ d : Decimal, x.write = signed s (d.write layout) ∧ d.IsShortest s x
  value : x.isNaN = false → ScalarKind.double.parse (Scalar.double x).text = .ok x
  nan : x.isNaN = true →
    ∃ y, ScalarKind.double.parse (Scalar.double x).text = .ok y ∧ y.isNaN = true

theorem roundTrips_finite (h : x.magnitude < infinityMagnitude) : x.RoundTrips := by
  obtain ⟨k, m, hfilled, hx⟩ := exists_filled x.magnitude
  have hlt : k * fractions + m < infinityMagnitude := hx ▸ h
  have hdatum := datum_ofMagnitude x.isNegative hfilled hlt
  have hparse := parse_text_finite x.isNegative hfilled hlt
  have hwrite := fun hm => write_finite x.isNegative hfilled hm hlt
  have hshortest := fun hm => isShortest_shortest x.isNegative hfilled hm hlt
  rw [← hx, ← eq_ofMagnitude] at hdatum hparse hwrite hshortest
  constructor
  · intro s n e hn hpos
    cases hdatum.symm.trans hn
    exact ⟨_, hwrite hpos, hshortest hpos⟩
  · exact fun _ => hparse
  · intro hnan
    rw [isNaN, decide_eq_true_eq] at hnan
    omega

/-- What is not finite is written by its name. -/
theorem roundTrips_of_infinity_le (h : infinityMagnitude ≤ x.magnitude) : x.RoundTrips := by
  have hdatum := datum_of_infinity_le h
  constructor
  · intro s m e hn
    rw [hdatum] at hn
    split at hn <;> cases hn
  · intro hnan
    rw [hnan, if_neg Bool.false_ne_true] at hdatum
    have hwrite : x.write = signed x.isNegative "inf".toList := by
      rw [write, hdatum]
    have hmagnitude : x.magnitude = infinityMagnitude := by
      rw [isNaN, decide_eq_false_iff_not] at hnan
      omega
    have hx := eq_ofMagnitude x
    rw [hmagnitude] at hx
    rw [parse_of_write hwrite (.infinite (.inl rfl)), Numeral.round, infinity, ← hx]
  · intro hnan
    rw [hnan, if_pos rfl] at hdatum
    have hwrite : x.write = signed false "NaN".toList := by
      rw [write, hdatum]
      rfl
    exact ⟨nan, parse_of_write hwrite (.nan rfl), by decide⟩

/-- Every double is read back from its text bit by bit, but for the bits of what is not a number. -/
theorem text_round_trips (x : Double) : x.RoundTrips := by
  rcases Nat.lt_or_ge x.magnitude infinityMagnitude with hfinite | hbeyond
  · exact roundTrips_finite hfinite
  · exact roundTrips_of_infinity_le hbeyond

end Double

end CountedObjects
