import Mathlib.Data.Nat.Cast.Order.Field
import CountedObjects.Proofs.Double.Reading
import CountedObjects.Proofs.Double.Shortest

/-! A double is written with as few digits as any decimal has that is rounded to it, and as near to
its value as decimals that end at the same place can be. -/
namespace CountedObjects.Double

variable {k n m : Nat} {e g : Int} {d : Decimal}

theorem center_roundingInterval (h : Filled k n) :
    (roundingInterval n ((k : ℤ) - 1074)).center = value (k * fractions + n) := by
  simp only [roundingInterval, RoundingInterval.center]
  rw [zpow_sub₀ two_ne_zero, value_filled h]
  push_cast
  ring

/-- If a decimal is rounded to a value, the grid that it is on has one that is chosen, and that one
is at least as near. -/
theorem exists_nearest? (h : Filled k n) (hn : 0 < n)
    (hd : Nearest value (k * fractions + n) d.value) :
    ∃ c, (roundingInterval n ((k : ℤ) - 1074)).nearest? d.exponent = some c ∧
      |c.value - value (k * fractions + n)| ≤ |d.value - value (k * fractions + n)| := by
  have hcontains (c : Decimal) := contains_iff_nearest (d := c) h hn
  have hself := nearest_value (k * fractions + n)
  rw [← center_roundingInterval h] at hself ⊢
  generalize roundingInterval n ((k : ℤ) - 1074) = i at *
  have hlow := i.value_below_le d.exponent
  have hhigh := i.le_value_above d.exponent
  -- A neighbour of the value is in the interval if a decimal beyond it is.
  rcases Nat.lt_or_ge (i.below d.exponent) d.digits with hside | hside
  · have hle := Decimal.value_mono hside d.exponent
    have hnear := abs_le_abs_of_nonneg (sub_nonneg.mpr hhigh) (sub_le_sub_right hle i.center)
    have habove := (hcontains _).mpr (hself.between strictMono_value hd hhigh hle)
    rcases i.nearest?_cases d.exponent with ⟨hc, -, hhalf⟩ | ⟨hc, -, -⟩ | ⟨-, -, hnone⟩
    · exact ⟨_, hc, (RoundingInterval.below_nearer (hhalf habove)).trans hnear⟩
    · exact ⟨_, hc, hnear⟩
    · cases hnone.symm.trans habove
  · have hle := Decimal.value_mono hside d.exponent
    have hnear := abs_le_abs_of_nonpos (sub_nonpos.mpr hlow) (sub_le_sub_right hle i.center)
    have hbelow := (hcontains _).mpr (hd.between strictMono_value hself hle hlow)
    rcases i.nearest?_cases d.exponent with ⟨hc, -, -⟩ | ⟨hc, -, hhalf⟩ | ⟨-, hnone, -⟩
    · exact ⟨_, hc, hnear⟩
    · exact ⟨_, hc, (RoundingInterval.above_nearer (hhalf hbelow)).trans hnear⟩
    · cases hnone.symm.trans hbelow

/-! The scale of a double. -/

/-- The digits of a quotient tell its size, and that of the ratio. -/
theorem ratio_size {num den : Nat} (hden : 0 < den) (hle : den ≤ num) :
    (10 : ℚ) ^ ((Text.digits (num / den)).length - 1 : ℤ) ≤ num / den ∧
      (num : ℚ) / den ≤ 10 ^ ((Text.digits (num / den)).length : ℤ) := by
  have hd : (0 : ℚ) < den := by exact_mod_cast hden
  have hpos : num / den ≠ 0 := (Nat.div_pos hle hden).ne'
  constructor
  · have hsize := size_le_decimal hpos 0
    rw [zpow_zero, mul_one, add_zero] at hsize
    exact hsize.trans Nat.cast_div_le
  · have hlen : 0 < (Text.digits (num / den)).length :=
      List.length_pos_of_ne_nil (Text.digits_ne_nil _)
    have hlt := (Text.length_digits_le_iff hlen).mp (Nat.le_refl _)
    have hnum : num ≤ 10 ^ (Text.digits (num / den)).length * den :=
      (Nat.div_lt_iff_lt_mul hden).mp hlt |>.le
    rw [zpow_natCast, div_le_iff₀ hd]
    exact_mod_cast hnum

theorem topExponent_spec (hm : 0 < m) (e : Int) :
    (10 : ℚ) ^ (topExponent m e - 1) ≤ m * 2 ^ e ∧ (m : ℚ) * 2 ^ e ≤ 10 ^ topExponent m e := by
  have hnum : 0 < m <<< e.toNat := by
    rw [Nat.shiftLeft_eq]
    positivity
  have hden : 0 < (1 : Nat) <<< (-e).toNat := by
    rw [Nat.shiftLeft_eq]
    positivity
  have hratio : (m : ℚ) * 2 ^ e = (m <<< e.toNat : ℕ) / ((1 : Nat) <<< (-e).toNat : ℕ) := by
    rw [zpow_eq_div 2 e, Nat.shiftLeft_eq, Nat.shiftLeft_eq]
    push_cast
    ring
  simp only [topExponent]
  rw [hratio]
  generalize m <<< e.toNat = num at *
  generalize (1 : Nat) <<< (-e).toNat = den at *
  split
  · next hle => exact ratio_size hden hle
  · next hle =>
    obtain ⟨hlo, hhi⟩ := ratio_size hnum (Nat.le_of_not_le hle)
    have hpos : (0 : ℚ) < den / num := by positivity
    have hinv : ((den : ℚ) / num)⁻¹ = num / den := inv_div _ _
    constructor
    · rw [← hinv, show (1 : ℤ) - (Text.digits (den / num)).length - 1 =
        -((Text.digits (den / num)).length : ℤ) by ring, zpow_neg]
      exact inv_anti₀ hpos hhi
    · rw [← hinv, show (1 : ℤ) - (Text.digits (den / num)).length =
        -((Text.digits (den / num)).length - 1 : ℤ) by ring, zpow_neg]
      exact inv_anti₀ (zpow_pos (by norm_num) _) hlo

/-- What is rounded to a value that is not zero is not zero. -/
theorem digits_pos_of_nearest {w : Nat} (hw : 0 < w) (hd : Nearest value w d.value) :
    0 < d.digits := by
  by_contra hzero
  have hvalue : d.value = 0 := by
    rw [Decimal.value, Nat.eq_zero_of_not_pos hzero, Nat.cast_zero, zero_mul]
  rw [hvalue] at hd
  exact hw.ne' (hd.unique strictMono_value nearest_zero)

/-- What is rounded to a value is less than twice as large, and so on no grid beyond the scale of
the value. -/
theorem exponent_le_topExponent (h : Filled k n) (hn : 0 < n)
    (hd : Nearest value (k * fractions + n) d.value) :
    d.exponent ≤ topExponent n ((k : ℤ) - 1074) := by
  by_contra hlt
  have hpos : (1 : ℚ) ≤ d.digits := by
    exact_mod_cast digits_pos_of_nearest (by omega) hd
  have hpow : (10 : ℚ) ^ (topExponent n ((k : ℤ) - 1074) + 1) ≤ 10 ^ d.exponent :=
    zpow_le_zpow_right₀ (by norm_num) (by omega)
  have hten : (0 : ℚ) < 10 ^ d.exponent := zpow_pos (by norm_num) _
  have htop := (topExponent_spec hn ((k : ℤ) - 1074)).2
  rw [zpow_add_one₀ (by norm_num)] at hpow
  have hfar : 10 * (n * (2 : ℚ) ^ ((k : ℤ) - 1074)) ≤ d.value :=
    calc 10 * (n * (2 : ℚ) ^ ((k : ℤ) - 1074))
      _ ≤ 10 * 10 ^ topExponent n ((k : ℤ) - 1074) := by linarith
      _ ≤ 10 ^ d.exponent := by linarith
      _ ≤ d.value := le_mul_of_one_le_left hten.le hpos
  have hnext := (hd.reaches_above strictMono_value (Nat.lt_succ_self _)).le
  rw [value_filled h, Nat.succ_eq_add_one, value_next h] at hnext
  have hunit : (0 : ℚ) < 2 ^ ((k : ℤ) - 1074) := zpow_pos two_pos _
  have hone : (2 : ℚ) ^ ((k : ℤ) - 1074) ≤ n * 2 ^ ((k : ℤ) - 1074) :=
    le_mul_of_one_le_left hunit.le (by exact_mod_cast hn)
  linarith

/-- A grid of eighteen digits has a decimal that is rounded to the value. -/
theorem exists_nearest_on_grid (h : Filled k n) (hn : 0 < n)
    (hg : g ≤ topExponent n ((k : ℤ) - 1074) - 18) :
    ∃ a, Nearest value (k * fractions + n) (⟨a, g⟩ : Decimal).value := by
  have hten : (0 : ℚ) < 10 ^ g := zpow_pos (by norm_num) g
  have hunit : (0 : ℚ) < 2 ^ ((k : ℤ) - 1074) := zpow_pos two_pos _
  have hfine : 4 * (10 : ℚ) ^ g ≤ 2 ^ ((k : ℤ) - 1074) := by
    have hlow := (topExponent_spec hn ((k : ℤ) - 1074)).1
    have hpow : (10 : ℚ) ^ g * 10 ^ (17 : ℤ) ≤ 10 ^ (topExponent n ((k : ℤ) - 1074) - 1) := by
      rw [← zpow_add₀ (by norm_num)]
      exact zpow_le_zpow_right₀ (by norm_num) (by omega)
    have hlt : (n : ℚ) ≤ 2 * 4503599627370496 := by exact_mod_cast h.lt.le
    have hsize := mul_le_mul_of_nonneg_right hlt hunit.le
    norm_num at hpow
    linarith
  obtain ⟨a, t, ht, ht', ha⟩ : ∃ a : ℕ, ∃ t : ℚ, 0 ≤ t ∧ t < 1 ∧
      (⟨a, g⟩ : Decimal).value = n * 2 ^ ((k : ℤ) - 1074) - t * 10 ^ g := by
    let i := roundingInterval n ((k : ℤ) - 1074)
    refine ⟨i.below g, i.beyond g, i.beyond_nonneg g, i.beyond_lt_one g, ?_⟩
    rw [i.value_below g, center_roundingInterval h, value_filled h]
  have hnonneg : 0 ≤ t * 10 ^ g := mul_nonneg ht hten.le
  have hlt : t * 10 ^ g < 10 ^ g := mul_lt_of_lt_one_left hten ht'
  have hgap : 1 / 2 ≤ gapBelow k n := by
    rw [gapBelow]
    split <;> norm_num
  have hle : (⟨a, g⟩ : Decimal).value / 2 ^ ((k : ℤ) - 1074) ≤ n := by
    rw [div_le_iff₀ hunit]
    linarith
  have hge : (n : ℚ) - 1 / 4 < (⟨a, g⟩ : Decimal).value / 2 ^ ((k : ℤ) - 1074) := by
    rw [lt_div_iff₀ hunit]
    linarith
  refine ⟨a, ?_⟩
  rw [← div_mul_cancel₀ (⟨a, g⟩ : Decimal).value hunit.ne']
  exact (nearest_iff h).mpr ⟨fun _ => .inl (by linarith), .inl (by linarith)⟩

/-! The decimal that is written. -/

/-- The first of the numbers below `n` that has an image. -/
theorem exists_first_of_findSome? {α : Type} {f : ℕ → Option α} {b : α}
    (h : (List.range n).findSome? f = some b) : ∃ j, f j = some b ∧ ∀ i < j, f i = none := by
  induction n with
  | zero => cases h
  | succ n ih =>
    rw [List.range_succ, List.findSome?_append] at h
    cases hbefore : (List.range n).findSome? f with
    | some c =>
      rw [hbefore, Option.some_or] at h
      exact ih (hbefore.trans h)
    | none =>
      rw [hbefore, Option.none_or, List.findSome?_singleton] at h
      exact ⟨n, h, fun i hi => List.findSome?_eq_none_iff.mp hbefore i (List.mem_range.mpr hi)⟩

/-- The search stops at the first grid that has a decimal, and it does stop. -/
theorem shortest_spec (h : Filled k n) (hn : 0 < n) :
    ∃ j : ℕ, (roundingInterval n ((k : ℤ) - 1074)).nearest?
        (topExponent n ((k : ℤ) - 1074) - j) = some (shortest n ((k : ℤ) - 1074)) ∧
      ∀ j' < j, (roundingInterval n ((k : ℤ) - 1074)).nearest?
        (topExponent n ((k : ℤ) - 1074) - j') = none := by
  simp only [shortest]
  cases hfind : (List.range 20).findSome? fun (j : Nat) =>
      (roundingInterval n ((k : ℤ) - 1074)).nearest? (topExponent n ((k : ℤ) - 1074) - j) with
  | some d => exact exists_first_of_findSome? hfind
  | none =>
    obtain ⟨a, ha⟩ := exists_nearest_on_grid h hn (le_refl _)
    obtain ⟨d, hd, -⟩ := exists_nearest? h hn ha
    have hnone := List.findSome?_eq_none_iff.mp hfind 18 (by decide)
    cases hnone.symm.trans hd

/-- No decimal on a coarser grid is rounded to the value. -/
theorem exponent_le_shortest (h : Filled k n) (hn : 0 < n)
    (hd : Nearest value (k * fractions + n) d.value) :
    d.exponent ≤ (shortest n ((k : ℤ) - 1074)).exponent := by
  obtain ⟨j, hj, hbefore⟩ := shortest_spec h hn
  have htop := exponent_le_topExponent h hn hd
  have hexponent := RoundingInterval.exponent_of_nearest? hj
  by_contra hlt
  obtain ⟨j', hj'⟩ := Int.eq_ofNat_of_zero_le (sub_nonneg.mpr htop)
  obtain ⟨d', hd', -⟩ := exists_nearest? h hn hd
  have hnone := hbefore j' (by omega)
  rw [show topExponent n ((k : ℤ) - 1074) - j' = d.exponent by omega] at hnone
  cases hnone.symm.trans hd'

/-- With fewer digits there would be a power of ten between the two decimals, on a coarser grid. -/
theorem length_digits_shortest_le (h : Filled k n) (hn : 0 < n)
    (hd : Nearest value (k * fractions + n) d.value) :
    (Text.digits (shortest n ((k : ℤ) - 1074)).digits).length ≤ (Text.digits d.digits).length := by
  have hexponent := exponent_le_shortest h hn hd
  have hshortest := nearest_shortest h hn
  have hcoarsest (p : Decimal) := exponent_le_shortest (d := p) h hn
  generalize shortest n ((k : ℤ) - 1074) = b at *
  by_contra hlt
  let j := (Text.digits d.digits).length
  have hj : 0 < j := List.length_pos_of_ne_nil (Text.digits_ne_nil _)
  have hten : (0 : ℚ) < 10 ^ b.exponent := zpow_pos (by norm_num) _
  have hpower : (⟨1, j + b.exponent⟩ : Decimal).value = 10 ^ j * 10 ^ b.exponent := by
    rw [Decimal.value, Nat.cast_one, one_mul, zpow_add₀ (by norm_num), zpow_natCast]
  have hlow : d.value ≤ 10 ^ j * 10 ^ b.exponent := by
    have hdigits : (d.digits : ℚ) ≤ 10 ^ j := by
      exact_mod_cast ((Text.length_digits_le_iff hj).mp (Nat.le_refl _)).le
    have hscale : (10 : ℚ) ^ d.exponent ≤ 10 ^ b.exponent :=
      zpow_le_zpow_right₀ (by norm_num) hexponent
    exact mul_le_mul hdigits hscale (zpow_pos (by norm_num) _).le (by positivity)
  have hhigh : 10 ^ j * 10 ^ b.exponent ≤ b.value := by
    have hdigits : (10 : ℚ) ^ j ≤ b.digits := by
      have hle := mt (Text.length_digits_le_iff hj).mpr hlt
      exact_mod_cast Nat.not_lt.mp hle
    exact mul_le_mul_of_nonneg_right hdigits hten.le
  have hcoarse := hcoarsest ⟨1, j + b.exponent⟩
    (hd.between strictMono_value hshortest (hpower ▸ hlow) (hpower ▸ hhigh))
  dsimp only at hcoarse
  omega

theorem distance_shortest_le (h : Filled k n) (hn : 0 < n)
    (hd : Nearest value (k * fractions + n) d.value)
    (hg : d.exponent = (shortest n ((k : ℤ) - 1074)).exponent) :
    |(shortest n ((k : ℤ) - 1074)).value - value (k * fractions + n)| ≤
      |d.value - value (k * fractions + n)| := by
  obtain ⟨j, hj, -⟩ := shortest_spec h hn
  obtain ⟨d', hd', hle⟩ := exists_nearest? h hn hd
  rw [hg, RoundingInterval.exponent_of_nearest? hj] at hd'
  cases hj.symm.trans hd'
  exact hle

/-- A decimal that is rounded to a double, with as few digits as any such decimal has and as near to
the double as any that ends at the same place. -/
structure Decimal.IsShortest (d : Decimal) (s : Bool) (x : Double) : Prop where
  rounds : ofDecimal s d.digits d.exponent = x
  fewest : ∀ c : Decimal, ofDecimal s c.digits c.exponent = x →
    (Text.digits d.digits).length ≤ (Text.digits c.digits).length
  nearest : ∀ c : Decimal, ofDecimal s c.digits c.exponent = x → c.exponent = d.exponent →
    ∀ p, x.number? = some p → |withSign s d.value - p| ≤ |withSign s c.value - p|

theorem ofDecimal_eq_iff (s : Bool) {w : Nat} (hw : w < infinityMagnitude) :
    ofDecimal s d.digits d.exponent = ofMagnitude s w ↔ Nearest value w d.value := by
  obtain ⟨v, hv, heq⟩ := exists_nearest_ofDecimal s d.digits d.exponent
  have hsign {u : Nat} (hu : u ≤ infinityMagnitude) : u < signBit :=
    Nat.lt_of_le_of_lt hu (by decide)
  constructor
  · intro hx
    have hmagnitude := congrArg magnitude (heq.symm.trans hx)
    rw [magnitude_ofMagnitude s (hsign (Nat.min_le_left ..)), magnitude_ofMagnitude s (hsign hw.le)]
      at hmagnitude
    obtain rfl : v = w := by omega
    exact hv
  · intro hd
    rw [heq, hv.unique strictMono_value hd, Nat.min_eq_right hw.le]

theorem isShortest_shortest (s : Bool) (h : Filled k n) (hn : 0 < n)
    (hw : k * fractions + n < infinityMagnitude) :
    (shortest n ((k : ℤ) - 1074)).IsShortest s (ofMagnitude s (k * fractions + n)) where
  rounds := (ofDecimal_eq_iff s hw).mpr (nearest_shortest h hn)
  fewest c hc := length_digits_shortest_le h hn ((ofDecimal_eq_iff s hw).mp hc)
  nearest c hc hg p hp := by
    rw [number?_ofMagnitude s hw] at hp
    cases hp
    rw [withSign_sub, withSign_sub]
    exact distance_shortest_le h hn ((ofDecimal_eq_iff s hw).mp hc) hg

end CountedObjects.Double
