import CountedObjects.Double.Shortest
import CountedObjects.Proofs.Double.Rounding

/-! The interval of the numbers that are rounded to a double. The shortest decimal is chosen from
it. -/
namespace CountedObjects.Double

variable {k n m : Nat} {e g : Int} {d : Decimal} {i : RoundingInterval}

def Decimal.value (d : Decimal) : ℚ := d.digits * 10 ^ d.exponent

theorem Decimal.value_mono {a b : Nat} (h : a ≤ b) (g : Int) :
    (⟨a, g⟩ : Decimal).value ≤ (⟨b, g⟩ : Decimal).value :=
  mul_le_mul_of_nonneg_right (by exact_mod_cast h) (zpow_pos (by norm_num) g).le

namespace RoundingInterval

/-- The bounds of an interval belong to it if it is closed. -/
def Bounds (i : RoundingInterval) (p q : ℚ) : Prop := p < q ∨ p = q ∧ i.closed = true

theorem measures_pos (i : RoundingInterval) (k : Int) :
    0 < (i.measures k).1 ∧ 0 < (i.measures k).2 := by
  simp only [measures, Nat.shiftLeft_eq, Nat.pow_eq]
  constructor <;> positivity

/-- A step of the grid, in units of the interval. -/
theorem measures_div (i : RoundingInterval) (k : Int) :
    ((i.measures k).2 : ℚ) / (i.measures k).1 = 10 ^ k / 2 ^ i.exponent := by
  simp only [measures, Nat.shiftLeft_eq, Nat.pow_eq]
  rw [zpow_eq_div 10 k, zpow_eq_div 2 i.exponent]
  push_cast
  field_simp

theorem contains_iff : i.contains d = true ↔
    i.Bounds i.low (d.value / 2 ^ i.exponent) ∧ i.Bounds (d.value / 2 ^ i.exponent) i.high := by
  have hunit : (0 : ℚ) < (i.measures d.exponent).1 := by
    exact_mod_cast (i.measures_pos d.exponent).1
  have hp : d.value / 2 ^ i.exponent =
      (d.digits * (i.measures d.exponent).2 : ℕ) / (i.measures d.exponent).1 := by
    rw [Nat.cast_mul, mul_div_assoc, measures_div, Decimal.value, mul_div_assoc]
  rw [hp, Bounds, Bounds, lt_div_iff₀ hunit, eq_div_iff hunit.ne', div_lt_iff₀ hunit,
    div_eq_iff hunit.ne']
  norm_cast
  simp only [contains]
  split
  · next hclosed =>
    simp only [hclosed, and_true, Bool.and_eq_true, decide_eq_true_eq, ← Nat.le_iff_lt_or_eq]
  · next hopen => simp [hopen]

/-- The last point of the grid `10 ^ g` that is not above the value. -/
def below (i : RoundingInterval) (g : Int) : Nat := i.value * (i.measures g).1 / (i.measures g).2

/-- How far the value is above that point, in steps of the grid. -/
def beyond (i : RoundingInterval) (g : Int) : ℚ :=
  (i.value * (i.measures g).1 % (i.measures g).2 : ℕ) / (i.measures g).2

theorem beyond_nonneg (i : RoundingInterval) (g : Int) : 0 ≤ i.beyond g := by
  rw [beyond]
  positivity

theorem beyond_lt_one (i : RoundingInterval) (g : Int) : i.beyond g < 1 := by
  have hstep : (0 : ℚ) < (i.measures g).2 := by exact_mod_cast (i.measures_pos g).2
  rw [beyond, div_lt_one hstep]
  exact_mod_cast Nat.mod_lt _ (i.measures_pos g).2

theorem two_mul_beyond_le_one (i : RoundingInterval) (g : Int) : 2 * i.beyond g ≤ 1 ↔
    2 * (i.value * (i.measures g).1 % (i.measures g).2) ≤ (i.measures g).2 := by
  have hstep : (0 : ℚ) < (i.measures g).2 := by exact_mod_cast (i.measures_pos g).2
  rw [beyond, ← mul_div_assoc, div_le_one hstep]
  norm_cast

theorem one_le_two_mul_beyond (i : RoundingInterval) (g : Int) : 1 ≤ 2 * i.beyond g ↔
    (i.measures g).2 ≤ 2 * (i.value * (i.measures g).1 % (i.measures g).2) := by
  have hstep : (0 : ℚ) < (i.measures g).2 := by exact_mod_cast (i.measures_pos g).2
  rw [beyond, ← mul_div_assoc, one_le_div hstep]
  norm_cast

def center (i : RoundingInterval) : ℚ := i.value * 2 ^ i.exponent

theorem below_add_beyond (i : RoundingInterval) (g : Int) :
    ((i.below g : ℚ) + i.beyond g) * 10 ^ g = i.center := by
  have hstep : (0 : ℚ) < (i.measures g).2 := by exact_mod_cast (i.measures_pos g).2
  have hten : (10 : ℚ) ^ g ≠ 0 := zpow_ne_zero _ (by norm_num)
  have hunits : ((i.measures g).1 : ℚ) / (i.measures g).2 = 2 ^ i.exponent / 10 ^ g := by
    rw [← inv_div, i.measures_div, inv_div]
  have hsplit : ((i.value * (i.measures g).1 : ℕ) : ℚ) =
      i.below g * (i.measures g).2 + i.beyond g * (i.measures g).2 := by
    rw [beyond, div_mul_cancel₀ _ hstep.ne', below]
    exact_mod_cast (Nat.div_add_mod' (i.value * (i.measures g).1) (i.measures g).2).symm
  rw [center, ← eq_div_iff hten, mul_div_assoc, ← hunits, ← mul_div_assoc, eq_div_iff hstep.ne',
    add_mul, ← hsplit, Nat.cast_mul]

theorem value_below (i : RoundingInterval) (g : Int) :
    (⟨i.below g, g⟩ : Decimal).value = i.center - i.beyond g * 10 ^ g := by
  rw [Decimal.value, ← i.below_add_beyond g]
  ring

theorem value_above (i : RoundingInterval) (g : Int) :
    (⟨i.below g + 1, g⟩ : Decimal).value = i.center + (1 - i.beyond g) * 10 ^ g := by
  rw [Decimal.value, ← i.below_add_beyond g]
  push_cast
  ring

/-- The value lies between two neighbours of a grid. -/
theorem value_below_le (i : RoundingInterval) (g : Int) :
    (⟨i.below g, g⟩ : Decimal).value ≤ i.center := by
  have hbeyond := i.beyond_nonneg g
  rw [i.value_below g, sub_le_self_iff]
  positivity

theorem le_value_above (i : RoundingInterval) (g : Int) :
    i.center ≤ (⟨i.below g + 1, g⟩ : Decimal).value := by
  have hbeyond := sub_pos.mpr (i.beyond_lt_one g)
  rw [i.value_above g, le_add_iff_nonneg_right]
  positivity

theorem below_nearer {i : RoundingInterval} {g : Int} (h : 2 * i.beyond g ≤ 1) :
    |(⟨i.below g, g⟩ : Decimal).value - i.center| ≤
      |(⟨i.below g + 1, g⟩ : Decimal).value - i.center| := by
  have hten : (0 : ℚ) < 10 ^ g := zpow_pos (by norm_num) g
  have hle : i.beyond g * 10 ^ g ≤ (1 - i.beyond g) * 10 ^ g :=
    mul_le_mul_of_nonneg_right (by linarith) hten.le
  rw [abs_of_nonpos (sub_nonpos.mpr (i.value_below_le g)),
    abs_of_nonneg (sub_nonneg.mpr (i.le_value_above g)), i.value_below g, i.value_above g]
  linarith

theorem above_nearer {i : RoundingInterval} {g : Int} (h : 1 ≤ 2 * i.beyond g) :
    |(⟨i.below g + 1, g⟩ : Decimal).value - i.center| ≤
      |(⟨i.below g, g⟩ : Decimal).value - i.center| := by
  have hten : (0 : ℚ) < 10 ^ g := zpow_pos (by norm_num) g
  have hle : (1 - i.beyond g) * 10 ^ g ≤ i.beyond g * 10 ^ g :=
    mul_le_mul_of_nonneg_right (by linarith) hten.le
  rw [abs_of_nonpos (sub_nonpos.mpr (i.value_below_le g)),
    abs_of_nonneg (sub_nonneg.mpr (i.le_value_above g)), i.value_below g, i.value_above g]
  linarith

theorem nearest?_eq (i : RoundingInterval) (g : Int) : i.nearest? g =
    match i.contains ⟨i.below g, g⟩, i.contains ⟨i.below g + 1, g⟩ with
    | true, true =>
      let r := i.value * (i.measures g).1 % (i.measures g).2
      some (if 2 * r < (i.measures g).2 ∨ (2 * r = (i.measures g).2 ∧ i.below g % 2 = 0) then
        ⟨i.below g, g⟩ else ⟨i.below g + 1, g⟩)
    | true, false => some ⟨i.below g, g⟩
    | false, true => some ⟨i.below g + 1, g⟩
    | false, false => none := rfl

/-- What is chosen of a grid: one of the neighbours of the value that are in the interval, and if
both are, the nearer one. -/
theorem nearest?_cases (i : RoundingInterval) (g : Int) :
    (i.nearest? g = some ⟨i.below g, g⟩ ∧ i.contains ⟨i.below g, g⟩ = true ∧
        (i.contains ⟨i.below g + 1, g⟩ = true → 2 * i.beyond g ≤ 1)) ∨
      (i.nearest? g = some ⟨i.below g + 1, g⟩ ∧ i.contains ⟨i.below g + 1, g⟩ = true ∧
        (i.contains ⟨i.below g, g⟩ = true → 1 ≤ 2 * i.beyond g)) ∨
      i.nearest? g = none ∧ i.contains ⟨i.below g, g⟩ = false ∧
        i.contains ⟨i.below g + 1, g⟩ = false := by
  rw [nearest?_eq, i.two_mul_beyond_le_one g, i.one_le_two_mul_beyond g]
  cases i.contains ⟨i.below g, g⟩ with
  | true =>
    cases i.contains ⟨i.below g + 1, g⟩ with
    | true =>
      dsimp only
      split
      · next hnear => exact .inl ⟨rfl, rfl, fun _ => by omega⟩
      · next hfar => exact .inr (.inl ⟨rfl, rfl, fun _ => by omega⟩)
    | false => exact .inl ⟨rfl, rfl, nofun⟩
  | false =>
    cases i.contains ⟨i.below g + 1, g⟩ with
    | true => exact .inr (.inl ⟨rfl, rfl, nofun⟩)
    | false => exact .inr (.inr ⟨rfl, rfl, rfl⟩)

theorem contains_of_nearest? (h : i.nearest? g = some d) : i.contains d = true := by
  rcases i.nearest?_cases g with ⟨hc, hbelow, -⟩ | ⟨hc, habove, -⟩ | ⟨hc, -⟩
  · cases h.symm.trans hc
    exact hbelow
  · cases h.symm.trans hc
    exact habove
  · cases h.symm.trans hc

theorem exponent_of_nearest? (h : i.nearest? g = some d) : d.exponent = g := by
  rcases i.nearest?_cases g with ⟨hc, -⟩ | ⟨hc, -⟩ | ⟨hc, -⟩
  · cases h.symm.trans hc
    rfl
  · cases h.symm.trans hc
    rfl
  · cases h.symm.trans hc

end RoundingInterval

theorem low_roundingInterval (k : Nat) (hn : 0 < n) :
    ((roundingInterval n ((k : ℤ) - 1074)).low : ℚ) = 2 * (2 * n - gapBelow k n) := by
  have hk : n = fractions ∧ -1074 < (k : ℤ) - 1074 ↔ n = fractions ∧ k ≠ 0 := by omega
  simp only [roundingInterval, gapBelow, hk]
  split
  · rw [Nat.cast_sub (by omega)]
    push_cast
    ring
  · rw [Nat.cast_sub (by omega)]
    push_cast
    ring

/-- The interval of a double holds what is rounded to it. -/
theorem contains_iff_nearest (h : Filled k n) (hn : 0 < n) :
    (roundingInterval n ((k : ℤ) - 1074)).contains d = true ↔
      Nearest Double.value (k * fractions + n) d.value := by
  have hpow : (2 : ℚ) ^ ((k : ℤ) - 1074) ≠ 0 := zpow_ne_zero _ two_ne_zero
  have hbounds : ∀ p q : ℚ, (roundingInterval n ((k : ℤ) - 1074)).Bounds (2 * p) (2 * q) ↔
      Reaches n p q := by
    intro p q
    rw [RoundingInterval.Bounds, Reaches, mul_lt_mul_iff_right₀ two_pos,
      mul_right_inj' two_ne_zero]
    simp only [roundingInterval, beq_iff_eq]
  have hscale : d.value / 2 ^ (roundingInterval n ((k : ℤ) - 1074)).exponent =
      2 * (2 * (d.value / 2 ^ ((k : ℤ) - 1074))) := by
    rw [show (roundingInterval n ((k : ℤ) - 1074)).exponent = (k : ℤ) - 1074 - 2 from rfl,
      zpow_sub₀ two_ne_zero]
    field_simp
  have hhigh : ((roundingInterval n ((k : ℤ) - 1074)).high : ℚ) = 2 * (2 * n + 1) := by
    simp only [roundingInterval]
    push_cast
    ring
  have hiff := nearest_iff (y := d.value / 2 ^ ((k : ℤ) - 1074)) h
  rw [div_mul_cancel₀ _ hpow] at hiff
  rw [RoundingInterval.contains_iff, hscale, low_roundingInterval k hn, hhigh, hbounds, hbounds,
    hiff]
  exact and_congr_left fun _ => ⟨fun hlow _ => hlow, fun hlow => hlow (by omega)⟩

theorem value_exactDecimal (m : Nat) (e : Int) : (exactDecimal m e).value = m * 2 ^ e := by
  rw [exactDecimal]
  obtain ⟨j, rfl | rfl⟩ := e.eq_nat_or_neg
  · rw [if_pos (Int.natCast_nonneg j), Decimal.value, Nat.shiftLeft_eq]
    simp
  · split
    · next hj =>
      obtain rfl : j = 0 := by omega
      simp [Decimal.value]
    · rw [Decimal.value, Nat.pow_eq, neg_neg, Int.toNat_natCast, Nat.cast_mul, mul_assoc,
        Nat.cast_pow, zpow_neg, zpow_neg, zpow_natCast, zpow_natCast, ← div_eq_mul_inv,
        Nat.cast_ofNat, show (10 : ℚ) ^ j = 5 ^ j * 2 ^ j by rw [← mul_pow]; norm_num]
      field_simp

theorem nearest_value (w : Nat) : Nearest value w (value w) where
  le v := by
    rw [sub_self, abs_zero]
    exact abs_nonneg _
  even v hv := by
    rw [sub_self, abs_zero, abs_eq_zero, sub_eq_zero] at hv
    exact .inl (strictMono_value.injective hv)

/-- The decimal a double is written with is rounded to that double. -/
theorem nearest_shortest (h : Filled k n) (hn : 0 < n) :
    Nearest Double.value (k * fractions + n) (shortest n ((k : ℤ) - 1074)).value := by
  simp only [shortest]
  cases hfind : (List.range 20).findSome? fun (j : Nat) =>
      (roundingInterval n ((k : ℤ) - 1074)).nearest? (topExponent n ((k : ℤ) - 1074) - j) with
  | none =>
    rw [Option.getD_none, value_exactDecimal, ← value_filled h]
    exact nearest_value _
  | some d =>
    obtain ⟨j, -, hj⟩ := List.exists_of_findSome?_eq_some hfind
    exact (contains_iff_nearest h hn).mp (RoundingInterval.contains_of_nearest? hj)

end CountedObjects.Double
