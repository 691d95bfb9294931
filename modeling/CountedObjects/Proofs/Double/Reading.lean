import CountedObjects.Proofs.Double.Decimals
import CountedObjects.Proofs.Double.Grammar

/-! What parsing answers for every text of a double. -/
namespace CountedObjects

namespace Double

variable {s : Bool} {w v : Nat} {p q a b : ℚ} {x y : Double}

def withSign (s : Bool) (q : ℚ) : ℚ := if s then -q else q

/-- The number that a finite double stands for. -/
def number? (x : Double) : Option ℚ :=
  match x.datum with
  | .finite s m e => some (withSign s (m * 2 ^ e))
  | .nan | .infinite _ => none

/-- The number `q`, written with the sign `s`, is rounded to the nearest of all finite doubles and
to the one with an even pattern if another number is as near. From half a unit beyond the greatest
double on it is rounded to infinity. -/
inductive RoundsTo (s : Bool) (q : ℚ) (x : Double) : Prop
  | finite (p : ℚ) (within : |q| < overflow) (sign : x.isNegative = s) (number : x.number? = some p)
      (le : ∀ (y : Double) r, y.number? = some r → |p - q| ≤ |r - q|)
      (even : ∀ (y : Double) r, y.number? = some r → |r - q| = |p - q| →
        r = p ∨ x.magnitude % 2 = 0)
  | infinite (beyond : overflow ≤ |q|) (eq : x = infinity s)

theorem withSign_sub (s : Bool) (a b : ℚ) : |withSign s a - withSign s b| = |a - b| := by
  cases s with
  | false => rfl
  | true => rw [withSign, withSign, if_pos rfl, if_pos rfl, ← neg_sub', abs_neg]

theorem abs_withSign (s : Bool) (ha : 0 ≤ a) : |withSign s a| = a := by
  cases s with
  | false => exact abs_of_nonneg ha
  | true => rw [withSign, if_pos rfl, abs_neg, abs_of_nonneg ha]

theorem exists_withSign (q : ℚ) : ∃ s, withSign s |q| = q := by
  rcases le_total 0 q with hq | hq
  · exact ⟨false, abs_of_nonneg hq⟩
  · refine ⟨true, ?_⟩
    rw [withSign, if_pos rfl, abs_of_nonpos hq, neg_neg]

theorem number?_ofMagnitude (s : Bool) (h : w < infinityMagnitude) :
    (ofMagnitude s w).number? = some (withSign s (value w)) := by
  obtain ⟨k, n, hfilled, rfl⟩ := exists_filled w
  rw [number?, datum_ofMagnitude s hfilled h, value_filled hfilled]

/-- Beyond the magnitudes of the finite doubles there is no number. -/
theorem number?_eq_none (h : infinityMagnitude ≤ x.magnitude) : x.number? = none := by
  rw [number?, datum_of_infinity_le h]
  cases x.isNaN <;> rfl

theorem number?_eq_some (h : x.number? = some p) :
    x.magnitude < infinityMagnitude ∧ p = withSign x.isNegative (value x.magnitude) := by
  have hlt : x.magnitude < infinityMagnitude := by
    by_contra hge
    rw [number?_eq_none (Nat.not_lt.mp hge)] at h
    cases h
  have hnumber := number?_ofMagnitude x.isNegative hlt
  rw [← eq_ofMagnitude, h] at hnumber
  exact ⟨hlt, Option.some.inj hnumber⟩

/-- Changing the sign of a number does not bring it nearer to one that has the sign already. -/
theorem sub_le_withSign (t : Bool) (hb : 0 ≤ b) : |b - (|q|)| ≤ |withSign t b - q| := by
  have h := abs_abs_sub_abs_le (withSign t b) q
  rwa [abs_withSign t hb] at h

theorem withSign_sub_abs (hs : withSign s |q| = q) : |withSign s b - q| = |b - (|q|)| := by
  nth_rewrite 1 [← hs]
  exact withSign_sub s b |q|

/-- What a number is rounded to is told by the value nearest to it without its sign. -/
theorem RoundsTo.eq_ofMagnitude (h : RoundsTo s q x) (hw : Nearest value w |q|) :
    x = ofMagnitude s (min infinityMagnitude w) := by
  cases h with
  | infinite beyond eq =>
    rw [Nat.min_eq_left ((infinity_le_iff hw).mpr beyond)]
    exact eq
  | finite p within sign number le even =>
    obtain ⟨hx, hp⟩ := number?_eq_some number
    have hfinite : w < infinityMagnitude := by
      rw [← Nat.not_le, infinity_le_iff hw, not_le]
      exact within
    obtain ⟨t, ht⟩ := exists_withSign q
    have hle : |p - q| ≤ |value w - (|q|)| := by
      rw [← withSign_sub_abs ht]
      exact le _ _ (number?_ofMagnitude t hfinite)
    have hge : |value x.magnitude - (|q|)| ≤ |p - q| := by
      rw [hp]
      exact sub_le_withSign _ (value_nonneg _)
    have hx : x.magnitude = w := by
      refine Nearest.unique strictMono_value ⟨fun v => ?_, fun v hv => ?_⟩ hw
      · exact (hge.trans hle).trans (hw.le v)
      · have := hw.le x.magnitude
        have htie : |value w - (|q|)| = |p - q| := by linarith
        rw [← withSign_sub_abs ht] at htie
        rcases even _ _ (number?_ofMagnitude t hfinite) htie with heq | heven
        · have habs : value w = value x.magnitude := by
            rw [← abs_withSign t (value_nonneg w), heq, hp, abs_withSign _ (value_nonneg _)]
          rw [← strictMono_value.injective habs] at hv ⊢
          exact hw.even v hv
        · exact .inr heven
    rw [Nat.min_eq_right hfinite.le, ← hx, ← sign]
    exact Double.eq_ofMagnitude x

/-- If a number is as near to one of the other sign as to that of its own sign, both are zero. -/
theorem eq_zero_of_tie (h : Nearest value w a) (ha : 0 ≤ a) {t : Bool} (hts : t ≠ s)
    (htie : |withSign t (value w) - withSign s a| = |value w - a|) : w = 0 := by
  have hsum : |withSign t (value w) - withSign s a| = value w + a := by
    have hpos := add_nonneg (value_nonneg w) ha
    cases s with
    | false =>
      obtain rfl : t = true := by simpa using hts
      rw [withSign, withSign, if_pos rfl, if_neg Bool.false_ne_true, ← neg_add', abs_neg,
        abs_of_nonneg hpos]
    | true =>
      obtain rfl : t = false := by simpa using hts
      rw [withSign, withSign, if_pos rfl, if_neg Bool.false_ne_true, sub_neg_eq_add,
        abs_of_nonneg hpos]
  have hzero : value 0 = 0 := by rw [value, units, if_pos (by decide), Nat.cast_zero, zero_mul]
  have hle := h.le 0
  rw [← htie, hsum, hzero, zero_sub, abs_neg, abs_of_nonneg ha] at hle
  have hw : value w ≤ value 0 := by linarith
  exact Nat.le_zero.mp (strictMono_value.le_iff_le.mp hw)

theorem roundsTo_of_nearest (s : Bool) (ha : 0 ≤ a) (h : Nearest value w a) :
    RoundsTo s (withSign s a) (ofMagnitude s (min infinityMagnitude w)) := by
  have habs := abs_withSign s ha
  by_cases hw : infinityMagnitude ≤ w
  · rw [Nat.min_eq_left hw]
    refine .infinite ?_ rfl
    rw [habs]
    exact (infinity_le_iff h).mp hw
  · have hlt := Nat.not_le.mp hw
    have hsign : w < signBit := Nat.lt_trans hlt (by decide)
    have hle (y : Double) : |value y.magnitude - a| ≤
        |withSign y.isNegative (value y.magnitude) - withSign s a| := by
      have hsub := sub_le_withSign (q := withSign s a) y.isNegative (value_nonneg y.magnitude)
      rwa [habs] at hsub
    rw [Nat.min_eq_right hlt.le]
    refine .finite (withSign s (value w)) ?_ (isNegative_ofMagnitude s hsign)
      (number?_ofMagnitude s hlt) (fun y r hy => ?_) fun y r hy htie => ?_
    · rw [habs, ← not_le, ← infinity_le_iff h]
      exact hw
    · obtain ⟨-, rfl⟩ := number?_eq_some hy
      rw [withSign_sub]
      exact (h.le _).trans (hle y)
    · obtain ⟨-, rfl⟩ := number?_eq_some hy
      rw [withSign_sub] at htie
      rw [magnitude_ofMagnitude s hsign]
      rcases h.even y.magnitude (le_antisymm (htie ▸ hle y) (h.le _)) with heq | heven
      · rw [heq] at htie ⊢
        by_cases hts : y.isNegative = s
        · exact .inl (by rw [hts])
        · exact .inr (by rw [eq_zero_of_tie h ha hts htie])
      · exact .inr heven

/-- Every number is rounded to one double. -/
theorem RoundsTo.unique (hx : RoundsTo s q x) (hy : RoundsTo s q y) : x = y := by
  have hden : 0 < (|q|).den := (|q|).den_pos
  obtain ⟨w, hw, -⟩ := exists_nearest_ofRatio false (|q|).num.natAbs hden
  have hnum : (((|q|).num.natAbs : ℕ) : ℚ) / (|q|).den = |q| := by
    have hnonneg : 0 ≤ (|q|).num := Rat.num_nonneg.mpr (abs_nonneg q)
    rw [← Int.cast_natCast, Int.natAbs_of_nonneg hnonneg, Rat.num_div_den]
  rw [hnum] at hw
  rw [hx.eq_ofMagnitude hw, hy.eq_ofMagnitude hw]

theorem roundsTo_ofDecimal (s : Bool) (d : Nat) (e : Int) :
    RoundsTo s (withSign s (d * 10 ^ e)) (ofDecimal s d e) := by
  obtain ⟨w, hw, heq⟩ := exists_nearest_ofDecimal s d e
  rw [heq]
  exact roundsTo_of_nearest s (by positivity) hw

/-- The doubles that a numeral is read as. Of these a decimal has one. -/
inductive Numeral.ReadAs : Numeral → Double → Prop
  | nan {x : Double} (nan : x.isNaN = true) : ReadAs .nan x
  | infinite (s : Bool) : ReadAs (.infinite s) (infinity s)
  | decimal {s : Bool} {d : Nat} {e : Int} {x : Double}
      (rounds : RoundsTo s (withSign s (d * 10 ^ e)) x) : ReadAs (.decimal s d e) x

theorem Numeral.readAs_round (n : Numeral) : n.ReadAs n.round := by
  cases n with
  | nan => exact .nan (by decide)
  | infinite s => exact .infinite s
  | decimal s d e => exact .decimal (roundsTo_ofDecimal s d e)

end Double

namespace ScalarKind

open Text Double

/-- What parsing a double answers for one text. -/
structure ParsesDouble (text : String) (cs : List Char) : Prop where
  trimmed : Trimmed text.toList cs
  accepts : (∃ x, double.parse text = .ok x) ↔ ∃ n, Spells cs n
  value : ∀ n x, Spells cs n → double.parse text = .ok x → n.ReadAs x
  rejects : (¬ ∃ n, Spells cs n) → double.parse text = .error (.parse text "Double"
    (if cs = [] then "cannot parse float from empty string" else "invalid float literal"))

theorem parse_double_eq (text : String) :
    double.parse text = match Numeral.ofChars (trim text.toList) with
      | .ok n => .ok n.round
      | .error f => .error (.parse text "Double" f.reason) := by
  rw [parse, ScalarKind.read, Double.read]
  cases Numeral.ofChars (trim text.toList) <;> rfl

theorem parse_double (text : String) : ParsesDouble text (trim text.toList) where
  trimmed := trimmed_trim text.toList
  accepts := by
    rw [parse_double_eq]
    constructor
    · rintro ⟨x, hx⟩
      split at hx
      · next n hn => exact ⟨n, ofChars_eq_ok.mp hn⟩
      · cases hx
    · rintro ⟨n, hn⟩
      rw [ofChars_eq_ok.mpr hn]
      exact ⟨n.round, rfl⟩
  value n x hn hx := by
    rw [parse_double_eq, ofChars_eq_ok.mpr hn] at hx
    cases hx
    exact n.readAs_round
  rejects h := by
    rw [parse_double_eq, ofChars_eq_error h]
    by_cases hempty : trim text.toList = []
    · rw [if_pos hempty, if_pos hempty]
      rfl
    · rw [if_neg hempty, if_neg hempty]
      rfl

end ScalarKind

end CountedObjects
