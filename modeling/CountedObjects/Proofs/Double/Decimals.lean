import CountedObjects.Double.Reader
import CountedObjects.Proofs.Digits
import CountedObjects.Proofs.Double.Rounding

/-! A decimal is rounded to the nearest value. Scales that are settled by the count of digits alone
are those where every power of ten gives the same. -/
namespace CountedObjects.Double

variable {d w : Nat} {e : Int} {s : Bool} {q : ℚ}

theorem value_infinity : value infinityMagnitude = 2 ^ (1024 : ℤ) := by
  have h : Filled 2046 fractions := ⟨by decide, .inr (Nat.le_refl _)⟩
  rw [show infinityMagnitude = 2046 * fractions + fractions by decide, value_filled h, fractions_eq,
    show ((4503599627370496 : ℕ) : ℚ) = 2 ^ (52 : ℤ) by norm_num, ← zpow_add₀ two_ne_zero]
  norm_num

/-- Half a unit of the last place above the greatest double and half a unit below infinity. -/
def overflow : ℚ := ((2 ^ 53 - 1) * 2 ^ (971 : ℤ) + 2 ^ (1024 : ℤ)) / 2

theorem overflow_eq : value (infinityMagnitude - 1) + value infinityMagnitude = 2 * overflow := by
  have h : Filled 2045 (2 * fractions - 1) := ⟨by decide, .inr (by decide)⟩
  have hcount : ((2 * fractions - 1 : ℕ) : ℚ) = 2 ^ 53 - 1 := by
    rw [fractions_eq]
    norm_num
  rw [value_infinity, show infinityMagnitude - 1 = 2045 * fractions + (2 * fractions - 1) by decide,
    value_filled h, hcount, overflow, mul_div_cancel₀ _ two_ne_zero]
  norm_num

/-- What is at least half a unit beyond the greatest double is rounded to infinity. -/
theorem infinity_le_iff (h : Nearest value w q) : infinityMagnitude ≤ w ↔ overflow ≤ q := by
  have hmono := strictMono_value.monotone
  constructor
  · intro hw
    have hlow := (h.reaches_below strictMono_value (show infinityMagnitude - 1 < w by
      have : 0 < infinityMagnitude := by decide
      omega)).le
    have := hmono hw
    have := overflow_eq
    linarith
  · intro hq
    by_contra hw
    rw [Nat.not_le] at hw
    have hval : value w ≤ value (infinityMagnitude - 1) := hmono (Nat.le_sub_one_of_lt hw)
    have hover := overflow_eq
    -- At the midpoint the greatest double would be even.
    rcases h.reaches_above strictMono_value hw with hlt | ⟨heq, heven⟩
    · linarith
    · have hlast : w = infinityMagnitude - 1 :=
        strictMono_value.injective (le_antisymm hval (by linarith))
      rw [hlast] at heven
      exact absurd heven (by decide)

theorem overflow_le : overflow ≤ 2 ^ (1024 : ℤ) := by
  have h := strictMono_value.monotone (Nat.sub_le infinityMagnitude 1)
  have hover := overflow_eq
  rw [value_infinity] at h hover
  linarith

theorem two_pow_le_ten_pow (n : ℕ) : (2 : ℚ) ^ (3 * n) ≤ 10 ^ n := by
  rw [pow_mul]
  gcongr
  norm_num

theorem pow_ten_ratio (d : Nat) (e : Int) :
    ((d * Nat.pow 10 e.toNat : ℕ) : ℚ) / (Nat.pow 10 (-e).toNat : ℕ) = d * 10 ^ e := by
  rw [Nat.pow_eq, Nat.pow_eq, zpow_eq_div 10 e]
  push_cast
  field_simp

theorem decimal_lt_size (d : Nat) (e : Int) :
    (d : ℚ) * 10 ^ e < 10 ^ ((Text.digits d).length + e) := by
  have hlen : 0 < (Text.digits d).length := List.length_pos_of_ne_nil (Text.digits_ne_nil d)
  have hd : (d : ℚ) < 10 ^ (Text.digits d).length := by
    exact_mod_cast (Text.length_digits_le_iff hlen).mp (Nat.le_refl _)
  rw [zpow_add₀ (by norm_num), zpow_natCast]
  exact mul_lt_mul_of_pos_right hd (by positivity)

theorem size_le_decimal (hd : d ≠ 0) (e : Int) :
    (10 : ℚ) ^ ((Text.digits d).length + e - 1) ≤ d * 10 ^ e := by
  obtain ⟨n, hn⟩ : ∃ n, (Text.digits d).length = n + 1 :=
    Nat.exists_eq_succ_of_ne_zero (List.length_pos_of_ne_nil (Text.digits_ne_nil d)).ne'
  have hle : 10 ^ n ≤ d := by
    rcases Nat.eq_zero_or_pos n with rfl | hpos
    · exact Nat.pos_of_ne_zero hd
    · by_contra hlt
      have := (Text.length_digits_le_iff hpos).mpr (Nat.not_le.mp hlt)
      omega
  have hcast : (10 : ℚ) ^ n ≤ d := by exact_mod_cast hle
  rw [hn, show ((n + 1 : ℕ) : ℤ) + e - 1 = n + e by push_cast; ring, zpow_add₀ (by norm_num),
    zpow_natCast]
  exact mul_le_mul_of_nonneg_right hcast (by positivity)

/-- What is nearer to zero than to the smallest value is rounded to zero. -/
theorem nearest_zero_of_lt (hq : 2 * q < smallest) : Nearest value 0 q := by
  have hfilled : Filled 0 0 := ⟨by decide, .inl rfl⟩
  have hscale : (2 : ℚ) ^ (((0 : ℕ) : ℤ) - 1074) = smallest := rfl
  have h : Nearest value (0 * fractions + 0) (q / smallest * 2 ^ (((0 : ℕ) : ℤ) - 1074)) := by
    refine (nearest_iff hfilled).mpr ⟨fun h => absurd h (by decide), .inl ?_⟩
    rw [← mul_div_assoc, Nat.cast_zero, mul_zero, zero_add, div_lt_one smallest_pos]
    exact hq
  rwa [hscale, div_mul_cancel₀ _ smallest_pos.ne', zero_mul] at h

/-- A decimal that starts more than 400 places after the point is rounded to zero. -/
theorem nearest_zero_of_size (h : (Text.digits d).length + e < -400) :
    Nearest value 0 (d * 10 ^ e) := by
  refine nearest_zero_of_lt ?_
  have hpow : (10 : ℚ) ^ ((Text.digits d).length + e) ≤ 10 ^ (-401 : ℤ) :=
    zpow_le_zpow_right₀ (by norm_num) (by omega)
  have hsize := decimal_lt_size d e
  have hbound : 2 * (10 : ℚ) ^ (-401 : ℤ) < smallest := by
    have htop : (2 : ℚ) ^ (1075 : ℤ) < 2 ^ (3 * 401 : ℤ) :=
      zpow_lt_zpow_right₀ one_lt_two (by norm_num)
    have hten : (2 : ℚ) ^ (3 * 401 : ℤ) ≤ 10 ^ (401 : ℤ) := two_pow_le_ten_pow 401
    rw [smallest, zpow_neg, zpow_neg, ← div_eq_mul_inv, div_lt_iff₀ (by positivity),
      ← div_eq_inv_mul, lt_div_iff₀ (by positivity), ← zpow_one_add₀ two_ne_zero]
    exact htop.trans_le hten
  linarith

/-- A decimal of more than 400 digits before the point is beyond all doubles. -/
theorem overflow_le_of_size (hd : d ≠ 0) (h : 400 < (Text.digits d).length + e) :
    overflow ≤ d * 10 ^ e := by
  have hpow : (10 : ℚ) ^ (400 : ℤ) ≤ 10 ^ ((Text.digits d).length + e - 1) :=
    zpow_le_zpow_right₀ (by norm_num) (by omega)
  have hsize := size_le_decimal hd e
  have htop : (2 : ℚ) ^ (1024 : ℤ) ≤ 2 ^ (3 * 400 : ℤ) :=
    zpow_le_zpow_right₀ one_le_two (by norm_num)
  have hten : (2 : ℚ) ^ (3 * 400 : ℤ) ≤ 10 ^ (400 : ℤ) := two_pow_le_ten_pow 400
  calc overflow
    _ ≤ 2 ^ (1024 : ℤ) := overflow_le
    _ ≤ 2 ^ (3 * 400 : ℤ) := htop
    _ ≤ 10 ^ (400 : ℤ) := hten
    _ ≤ 10 ^ ((Text.digits d).length + e - 1) := hpow
    _ ≤ d * 10 ^ e := hsize

/-- A decimal is rounded to the nearest value, where what is beyond all doubles counts as
infinity. -/
theorem exists_nearest_ofDecimal (s : Bool) (d : Nat) (e : Int) :
    ∃ w, Nearest value w (d * 10 ^ e) ∧
      ofDecimal s d e = ofMagnitude s (min infinityMagnitude w) := by
  have hden : 0 < Nat.pow 10 (-e).toNat := Nat.pow_pos (by decide)
  obtain ⟨w, hw, hratio⟩ := exists_nearest_ofRatio s (d * Nat.pow 10 e.toNat) hden
  rw [pow_ten_ratio] at hw
  refine ⟨w, hw, ?_⟩
  simp only [ofDecimal]
  split_ifs with hsmall hlarge
  · have hzero : Nearest value 0 (d * 10 ^ e) := by
      rcases hsmall with rfl | hsmall
      · rw [Nat.cast_zero, zero_mul]
        exact nearest_zero
      · exact nearest_zero_of_size hsmall
    rw [hw.unique strictMono_value hzero, Nat.min_zero]
  · have hd : d ≠ 0 := fun hd => hsmall (.inl hd)
    have hinf := (infinity_le_iff hw).mpr (overflow_le_of_size hd hlarge)
    rw [infinity, Nat.min_eq_left hinf]
  · exact hratio

end CountedObjects.Double
