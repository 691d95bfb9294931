import Mathlib.Algebra.Order.Field.Power
import Mathlib.Tactic.FieldSimp
import Mathlib.Tactic.Ring
import CountedObjects.Double.Basic
import CountedObjects.Proofs.Double.Nearest

/-! The values of doubles. A pattern without its sign numbers the values in increasing order, and
the sequence of values goes on where the doubles end. -/
namespace CountedObjects.Double

/-- The least value that is not zero. -/
def smallest : ℚ := 2 ^ (-1074 : ℤ)

/-- The value of a magnitude in units of the smallest one. -/
def units (w : Nat) : Nat :=
  if w < fractions then w else (fractions + w % fractions) * 2 ^ (w / fractions - 1)

def value (w : Nat) : ℚ := units w * smallest

/-- A count `n` of units `2 ^ k` that a significand has room for and that fills it, unless the units
are the smallest ones. -/
structure Filled (k n : Nat) : Prop where
  lt : n < 2 * fractions
  full : k = 0 ∨ fractions ≤ n

variable {k n w v : Nat} {s : Bool} {x : Double}

theorem smallest_pos : 0 < smallest := zpow_pos two_pos _

theorem fractions_eq : fractions = 4503599627370496 := rfl

theorem exists_filled (w : Nat) : ∃ k n, Filled k n ∧ w = k * fractions + n := by
  rw [fractions_eq]
  by_cases hw : w < 4503599627370496
  · exact ⟨0, w, ⟨by rw [fractions_eq]; omega, .inl rfl⟩, by omega⟩
  · refine ⟨w / 4503599627370496 - 1, 4503599627370496 + w % 4503599627370496, ⟨?_, .inr ?_⟩, ?_⟩
    · rw [fractions_eq]
      omega
    · rw [fractions_eq]
      omega
    · omega

theorem units_filled (h : Filled k n) : units (k * fractions + n) = n * 2 ^ k := by
  obtain ⟨hlt, hfull⟩ := h
  rw [fractions_eq] at *
  unfold units
  rw [fractions_eq]
  split
  · next hw =>
    obtain rfl : k = 0 := by omega
    omega
  · next hw =>
    have hn : 4503599627370496 + (k * 4503599627370496 + n) % 4503599627370496 = n := by omega
    have hk : (k * 4503599627370496 + n) / 4503599627370496 - 1 = k := by omega
    rw [hn, hk]

/-- A carry out of the significand doubles the units. -/
theorem units_next (h : Filled k n) : units (k * fractions + n + 1) = (n + 1) * 2 ^ k := by
  rcases Nat.lt_or_eq_of_le (Nat.succ_le_of_lt h.lt) with hn | hn
  · have hnext : Filled k (n + 1) := ⟨hn, h.full.imp_right Nat.le_succ_of_le⟩
    rw [Nat.add_assoc, units_filled hnext]
  · have hcarry : Filled (k + 1) fractions := ⟨by decide, .inr (Nat.le_refl _)⟩
    have hw : k * fractions + n + 1 = (k + 1) * fractions + fractions := by
      rw [Nat.succ_mul]
      omega
    rw [hw, units_filled hcarry, show n + 1 = 2 * fractions from hn]
    ring

/-- Below the first significand that is filled the units are half of what they are above. -/
theorem units_prev_of_first (hw : v + 1 = (k + 1) * fractions + fractions) :
    units v = (2 * fractions - 1) * 2 ^ k := by
  have hfilled : Filled k (2 * fractions - 1) := ⟨by decide, .inr (by decide)⟩
  have hf : 0 < fractions := by decide
  rw [← units_filled hfilled]
  congr 1
  rw [Nat.succ_mul] at hw
  omega

theorem units_lt_next (w : Nat) : units w < units (w + 1) := by
  obtain ⟨k, n, h, rfl⟩ := exists_filled w
  rw [units_filled h, units_next h]
  exact Nat.mul_lt_mul_of_pos_right (Nat.lt_succ_self n) (by positivity)

theorem strictMono_value : StrictMono value := by
  apply strictMono_nat_of_lt_succ
  intro w
  have h : (units w : ℚ) < units (w + 1) := by exact_mod_cast units_lt_next w
  exact mul_lt_mul_of_pos_right h smallest_pos

theorem value_nonneg (w : Nat) : 0 ≤ value w := mul_nonneg (Nat.cast_nonneg _) smallest_pos.le

theorem value_filled (h : Filled k n) : value (k * fractions + n) = n * 2 ^ ((k : ℤ) - 1074) := by
  rw [value, smallest, units_filled h, sub_eq_add_neg, zpow_add₀ two_ne_zero, zpow_natCast,
    Nat.cast_mul, Nat.cast_pow, Nat.cast_ofNat, mul_assoc]

theorem signBit_eq : signBit = 9223372036854775808 := rfl

theorem toNat_ofMagnitude (s : Bool) (h : w < signBit) :
    (ofMagnitude s w).bits.toNat = (if s then signBit else 0) + w := by
  refine UInt64.toNat_ofNat_of_lt' ?_
  have h64 : UInt64.size = 18446744073709551616 := rfl
  rw [signBit_eq] at h ⊢
  split <;> omega

theorem magnitude_ofMagnitude (s : Bool) (h : w < signBit) : (ofMagnitude s w).magnitude = w := by
  rw [magnitude, toNat_ofMagnitude s h]
  rw [signBit_eq] at h ⊢
  split <;> omega

theorem isNegative_ofMagnitude (s : Bool) (h : w < signBit) :
    (ofMagnitude s w).isNegative = s := by
  rw [isNegative, toNat_ofMagnitude s h]
  cases s with
  | false => simpa using h
  | true => simp

theorem magnitude_lt (x : Double) : x.magnitude < signBit := Nat.mod_lt _ (by decide)

theorem eq_ofMagnitude (x : Double) : x = ofMagnitude x.isNegative x.magnitude := by
  have hlt : x.bits.toNat < 18446744073709551616 := x.bits.toNat_lt
  have hbits : (if x.isNegative then signBit else 0) + x.magnitude = x.bits.toNat := by
    rw [isNegative, magnitude, signBit_eq]
    by_cases hx : 9223372036854775808 ≤ x.bits.toNat
    · rw [decide_eq_true hx, if_pos rfl]
      omega
    · rw [decide_eq_false hx, if_neg Bool.false_ne_true]
      omega
  rw [ofMagnitude, hbits, UInt64.ofNat_toNat]

/-- A finite double is its significand in units of its last place. -/
theorem datum_ofMagnitude (s : Bool) (h : Filled k n)
    (hw : k * fractions + n < infinityMagnitude) :
    (ofMagnitude s (k * fractions + n)).datum = .finite s n ((k : ℤ) - 1074) := by
  have hsign : k * fractions + n < signBit := Nat.lt_trans hw (by decide)
  obtain ⟨hlt, hfull⟩ := h
  simp only [datum, magnitude_ofMagnitude s hsign, isNegative_ofMagnitude s hsign]
  rw [infinityMagnitude] at hw
  rw [fractions_eq] at *
  split
  · omega
  · split
    · congr 1 <;> omega
    · congr 1 <;> omega

/-- What is not finite is an infinity or no number, which its magnitude tells. -/
theorem datum_of_infinity_le (h : infinityMagnitude ≤ x.magnitude) :
    x.datum = if x.isNaN then .nan else .infinite x.isNegative := by
  have hlt := magnitude_lt x
  have hsplit : x.magnitude / fractions = 2047 ∧
      (x.magnitude % fractions = 0 ↔ x.magnitude = infinityMagnitude) := by
    rw [signBit_eq] at hlt
    rw [infinityMagnitude] at *
    rw [fractions_eq] at *
    omega
  simp only [datum, if_pos hsplit.1]
  by_cases heq : x.magnitude = infinityMagnitude
  · have hnan : x.isNaN = false := decide_eq_false (by omega)
    rw [hnan, if_pos (hsplit.2.mpr heq)]
    rfl
  · have hnan : x.isNaN = true := decide_eq_true (by omega)
    rw [hnan, if_neg (mt hsplit.2.mp heq)]
    rfl

end CountedObjects.Double
