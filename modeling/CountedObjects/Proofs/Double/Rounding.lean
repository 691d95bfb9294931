import Mathlib.Algebra.Order.Field.Basic
import Mathlib.Tactic.Positivity
import CountedObjects.Double.Rounding
import CountedObjects.Proofs.Double.Magnitudes

/-! A ratio is rounded to the nearest value. The midpoints between which a ratio is rounded to a
value are given in units of its last place. -/
namespace CountedObjects.Double

variable {k n w num den : Nat} {s : Bool} {e : Int} {y : ℚ}

/-- The distance to the value below, in units of the last place. -/
def gapBelow (k n : Nat) : ℚ := if n = fractions ∧ k ≠ 0 then 1 / 2 else 1

theorem mod_two_filled (k n : Nat) : (k * fractions + n) % 2 = n % 2 := by
  rw [fractions_eq]
  omega

theorem value_next (h : Filled k n) :
    value (k * fractions + n + 1) = (n + 1) * 2 ^ ((k : ℤ) - 1074) := by
  rw [value, smallest, units_next h, sub_eq_add_neg, zpow_add₀ two_ne_zero, zpow_natCast,
    Nat.cast_mul, Nat.cast_pow, Nat.cast_ofNat, Nat.cast_succ, mul_assoc]

theorem value_prev (h : Filled k n) {v : Nat} (hv : v + 1 = k * fractions + n) :
    value v = (n - gapBelow k n) * 2 ^ ((k : ℤ) - 1074) := by
  by_cases hfirst : n = fractions ∧ k ≠ 0
  · obtain ⟨rfl, hk⟩ := hfirst
    obtain ⟨j, rfl⟩ := Nat.exists_eq_succ_of_ne_zero hk
    have hpow : (2 : ℚ) ^ (((j + 1 : ℕ) : ℤ) - 1074) = 2 ^ j * smallest * 2 := by
      rw [smallest, ← zpow_natCast, ← zpow_add₀ two_ne_zero, ← zpow_add_one₀ two_ne_zero]
      congr 1
      omega
    have hgap : gapBelow (j + 1) fractions = 1 / 2 := if_pos ⟨rfl, hk⟩
    have hcount : ((2 * fractions - 1 : ℕ) : ℚ) = 2 * fractions - 1 := by
      rw [Nat.cast_sub (by decide), Nat.cast_mul, Nat.cast_ofNat, Nat.cast_one]
    rw [value, units_prev_of_first hv, hpow, hgap, Nat.cast_mul, hcount, Nat.cast_pow,
      Nat.cast_ofNat]
    ring
  · have hn : 0 < n := by
      rcases h.full with rfl | hf
      · omega
      · exact Nat.lt_of_lt_of_le (by decide) hf
    obtain ⟨m, rfl⟩ : ∃ m, n = m + 1 := ⟨n - 1, by omega⟩
    obtain rfl : v = k * fractions + m := by omega
    have hm : k = 0 ∨ fractions ≤ m := by
      rcases h.full with hk | hf
      · exact .inl hk
      · by_cases hk : k = 0
        · exact .inl hk
        · have hne : m + 1 ≠ fractions := fun heq => hfirst ⟨heq, hk⟩
          exact .inr (by omega)
    have hgap : gapBelow k (m + 1) = 1 := if_neg hfirst
    rw [value_filled ⟨Nat.lt_of_succ_lt h.lt, hm⟩, hgap, Nat.cast_succ, add_sub_cancel_right]

theorem reaches_mul {w : ℕ} {p q c : ℚ} (hc : 0 < c) :
    Reaches w (p * c) (q * c) ↔ Reaches w p q := by
  rw [Reaches, Reaches, mul_lt_mul_iff_left₀ hc, mul_left_inj' hc.ne']

theorem reaches_congr {v w : ℕ} {p q : ℚ} (h : v % 2 = w % 2) : Reaches v p q ↔ Reaches w p q := by
  rw [Reaches, Reaches, h]

/-- What is rounded to a value lies between the midpoints to its neighbours. -/
theorem nearest_iff (h : Filled k n) :
    Nearest value (k * fractions + n) (y * 2 ^ ((k : ℤ) - 1074)) ↔
    (0 < k * fractions + n → Reaches n (2 * n - gapBelow k n) (2 * y)) ∧
      Reaches n (2 * y) (2 * n + 1) := by
  have hself := value_filled h
  have hnext := value_next h
  have hprev := fun v => value_prev h (v := v)
  have hc : (0 : ℚ) < 2 ^ ((k : ℤ) - 1074) := zpow_pos two_pos _
  generalize (2 : ℚ) ^ ((k : ℤ) - 1074) = c at *
  have habove : Reaches (k * fractions + n) (2 * (y * c))
      (value (k * fractions + n) + value (k * fractions + n + 1)) ↔
        Reaches n (2 * y) (2 * n + 1) := by
    rw [hself, hnext, reaches_congr (mod_two_filled k n), show 2 * (y * c) = 2 * y * c by ring,
      show n * c + (n + 1) * c = (2 * n + 1) * c by ring, reaches_mul hc]
  have hbelow : ∀ v, v + 1 = k * fractions + n → (Reaches (k * fractions + n)
      (value v + value (k * fractions + n)) (2 * (y * c)) ↔
        Reaches n (2 * n - gapBelow k n) (2 * y)) := by
    intro v hv
    rw [hself, hprev v hv, reaches_congr (mod_two_filled k n), show 2 * (y * c) = 2 * y * c by ring,
      show (n - gapBelow k n) * c + n * c = (2 * n - gapBelow k n) * c by ring, reaches_mul hc]
  constructor
  · intro hnear
    refine ⟨fun hpos => ?_, habove.mp (hnear.reaches_above strictMono_value (Nat.lt_succ_self _))⟩
    obtain ⟨v, hv⟩ := Nat.exists_eq_succ_of_ne_zero hpos.ne'
    exact (hbelow v hv.symm).mp (hnear.reaches_below strictMono_value (by omega))
  · rintro ⟨hlow, hhigh⟩
    refine .of_neighbours strictMono_value (fun v hv => ?_) (habove.mpr hhigh)
    exact (hbelow v hv).mpr (hlow (by omega))

theorem roundDiv_cases (num den : Nat) :
    2 * (num % den) < den ∧ roundDiv num den = num / den ∨
      den < 2 * (num % den) ∧ roundDiv num den = num / den + 1 ∨
      2 * (num % den) = den ∧ roundDiv num den = num / den + num / den % 2 := by
  simp only [roundDiv]
  split_ifs with hlow hhigh
  · exact .inl ⟨hlow, rfl⟩
  · exact .inr (.inl ⟨hhigh, rfl⟩)
  · exact .inr (.inr ⟨by omega, rfl⟩)

/-- The integer nearest to a ratio, the even one at a midpoint. -/
theorem reaches_roundDiv (num : Nat) (hden : 0 < den) :
    Reaches (roundDiv num den) (2 * roundDiv num den - 1) (2 * (num / den)) ∧
      Reaches (roundDiv num den) (2 * (num / den)) (2 * roundDiv num den + 1) := by
  have hd : (0 : ℚ) < den := by exact_mod_cast hden
  have hratio : 2 * ((num : ℚ) / den) = 2 * (num / den : ℕ) + (2 * (num % den) : ℕ) / den := by
    have hsplit : (num : ℚ) = (num / den : ℕ) * den + (num % den : ℕ) := by
      exact_mod_cast (Nat.div_add_mod' num den).symm
    rw [hsplit]
    push_cast
    field_simp
  rcases roundDiv_cases num den with ⟨hr, hn⟩ | ⟨hr, hn⟩ | ⟨hr, hn⟩
  · have hlt : ((2 * (num % den) : ℕ) : ℚ) / den < 1 := by
      rw [div_lt_one hd]
      exact_mod_cast hr
    have hpos : (0 : ℚ) ≤ ((2 * (num % den) : ℕ) : ℚ) / den := by positivity
    rw [hn, hratio]
    exact ⟨.inl (by linarith), .inl (by linarith)⟩
  · have hgt : 1 < ((2 * (num % den) : ℕ) : ℚ) / den := by
      rw [one_lt_div hd]
      exact_mod_cast hr
    have hlt : ((2 * (num % den) : ℕ) : ℚ) / den < 2 := by
      rw [div_lt_iff₀ hd]
      exact_mod_cast (by have := Nat.mod_lt num hden; omega : 2 * (num % den) < 2 * den)
    rw [hn, hratio]
    push_cast at *
    exact ⟨.inl (by linarith), .inl (by linarith)⟩
  · rw [hn, hratio, hr, div_self hd.ne']
    rcases Nat.mod_two_eq_zero_or_one (num / den) with heven | hodd
    · rw [heven, Nat.add_zero]
      exact ⟨.inl (by linarith), .inr ⟨rfl, heven⟩⟩
    · rw [hodd]
      push_cast
      exact ⟨.inr ⟨by ring, by omega⟩, .inl (by linarith)⟩

theorem inUnits_pos (hden : 0 < den) (e : Int) : 0 < (inUnits num den e).2 := by
  simp only [inUnits, Nat.shiftLeft_eq]
  exact Nat.mul_pos hden (Nat.two_pow_pos _)

/-- A power as a ratio of two of which one is trivial. -/
theorem zpow_eq_div (b : ℚ) (e : Int) : b ^ e = b ^ e.toNat / b ^ (-e).toNat := by
  obtain ⟨j, rfl | rfl⟩ := e.eq_nat_or_neg
  · simp
  · simp

theorem inUnits_div (num den : Nat) (e : Int) :
    ((inUnits num den e).1 : ℚ) / (inUnits num den e).2 = num / den / 2 ^ e := by
  simp only [inUnits, Nat.shiftLeft_eq]
  rw [zpow_eq_div 2 e]
  push_cast
  field_simp

/-- The leading binary digit of a ratio tells its size. -/
theorem leadingExponent_spec (hnum : 0 < num) (hden : 0 < den) :
    (2 : ℚ) ^ leadingExponent num den ≤ num / den ∧
      (num : ℚ) / den < 2 ^ (leadingExponent num den + 1) := by
  have hd : (0 : ℚ) < den := by exact_mod_cast hden
  have hnlo : (2 : ℚ) ^ num.log2 ≤ num := by exact_mod_cast Nat.log2_self_le hnum.ne'
  have hnhi : (num : ℚ) < 2 ^ (num.log2 + 1) := by exact_mod_cast Nat.lt_log2_self
  have hdlo : (2 : ℚ) ^ den.log2 ≤ den := by exact_mod_cast Nat.log2_self_le hden.ne'
  have hdhi : (den : ℚ) < 2 ^ (den.log2 + 1) := by exact_mod_cast Nat.lt_log2_self
  have hsplit : ∀ a b : ℕ, (2 : ℚ) ^ ((a : ℤ) - b) = 2 ^ a / 2 ^ b := by
    intro a b
    rw [zpow_sub₀ two_ne_zero, zpow_natCast, zpow_natCast]
  let e : ℤ := num.log2 - den.log2
  have hlo : (2 : ℚ) ^ (e - 1) ≤ num / den := by
    rw [show e - 1 = (num.log2 : ℤ) - (den.log2 + 1 : ℕ) by simp [e]; ring, hsplit]
    exact div_le_div₀ (Nat.cast_nonneg num) hnlo hd hdhi.le
  have hhi : (num : ℚ) / den < 2 ^ (e + 1) := by
    rw [show e + 1 = (num.log2 + 1 : ℕ) - (den.log2 : ℤ) by simp [e]; ring, hsplit]
    exact div_lt_div₀ hnhi hdlo (by positivity) (by positivity)
  have hunits : (inUnits num den e).1 < (inUnits num den e).2 ↔ (num : ℚ) / den < 2 ^ e := by
    have hpos : (0 : ℚ) < (inUnits num den e).2 := by exact_mod_cast inUnits_pos hden e
    rw [← Nat.cast_lt (α := ℚ), ← div_lt_one hpos, inUnits_div, div_lt_one (zpow_pos two_pos e)]
  have he : leadingExponent num den =
      if (inUnits num den e).1 < (inUnits num den e).2 then e - 1 else e := rfl
  rw [he]
  split
  · next hlt => exact ⟨hlo, by simpa using hunits.mp hlt⟩
  · next hge => exact ⟨not_lt.mp (mt hunits.mpr hge), hhi⟩

theorem nearest_zero : Nearest value 0 0 := by
  have hfilled : Filled 0 0 := ⟨by decide, .inl rfl⟩
  have h : Nearest value (0 * fractions + 0) (0 * 2 ^ (((0 : ℕ) : ℤ) - 1074)) :=
    (nearest_iff hfilled).mpr ⟨fun h => absurd h (by decide), .inl (by norm_num)⟩
  rwa [zero_mul, zero_mul] at h

/-- A number of units is rounded to a whole one. Where that is too many for a significand it is the
first one with units twice as large. -/
theorem nearest_of_whole (hlow : Reaches n (2 * n - 1) (2 * y))
    (hhigh : Reaches n (2 * y) (2 * n + 1)) (hy : y < 2 * fractions) (hk : k = 0 ∨ fractions ≤ y) :
    Nearest value (k * fractions + n) (y * 2 ^ ((k : ℤ) - 1074)) := by
  have hn : n ≤ 2 * fractions := by
    have hle := hlow.le
    have hlt : (n : ℚ) < (2 * fractions + 1 : ℕ) := by
      push_cast
      linarith
    exact Nat.le_of_lt_succ (by exact_mod_cast hlt)
  rcases hn.lt_or_eq with hlt | rfl
  · have hfilled : Filled k n := by
      refine ⟨hlt, hk.imp_right fun hf => ?_⟩
      have hle := hhigh.le
      have hge : (fractions : ℚ) < (n + 1 : ℕ) := by
        push_cast
        linarith
      exact Nat.le_of_lt_succ (by exact_mod_cast hge)
    refine (nearest_iff hfilled).mpr ⟨fun _ => ?_, hhigh⟩
    by_cases hfirst : n = fractions ∧ k ≠ 0
    · have hf := hk.resolve_left hfirst.2
      rw [gapBelow, if_pos hfirst, hfirst.1]
      exact .inl (by linarith)
    · rwa [gapBelow, if_neg hfirst]
  · have hcarry : Filled (k + 1) fractions := ⟨by decide, .inr (Nat.le_refl _)⟩
    have hgap : gapBelow (k + 1) fractions = 1 / 2 := if_pos ⟨rfl, Nat.succ_ne_zero k⟩
    have hpow : y * (2 : ℚ) ^ ((k : ℤ) - 1074) = y / 2 * 2 ^ (((k + 1 : ℕ) : ℤ) - 1074) := by
      rw [show ((k + 1 : ℕ) : ℤ) - 1074 = (k : ℤ) - 1074 + 1 by push_cast; ring,
        zpow_add_one₀ two_ne_zero]
      ring
    rw [show k * fractions + 2 * fractions = (k + 1) * fractions + fractions by ring, hpow]
    refine (nearest_iff hcarry).mpr ⟨fun _ => ?_, .inl (by linarith)⟩
    have hhalf := (reaches_mul (by norm_num : (0 : ℚ) < 1 / 2)).mpr hlow
    rw [reaches_congr (show 2 * fractions % 2 = fractions % 2 by decide)] at hhalf
    convert hhalf using 1
    · rw [hgap]
      push_cast
      ring
    · ring

/-- The unit is the largest in which the ratio still fills a significand, if it fills one at all. -/
theorem unitExponent_spec (hnum : 0 < num) (hden : 0 < den) :
    (num : ℚ) / den / 2 ^ unitExponent num den < 2 * fractions ∧
      (unitExponent num den = -1074 ∨ fractions ≤ (num : ℚ) / den / 2 ^ unitExponent num den) := by
  obtain ⟨hlo, hhi⟩ := leadingExponent_spec hnum hden
  have hpos : (0 : ℚ) < 2 ^ unitExponent num den := zpow_pos two_pos _
  have hfractions : (fractions : ℚ) = 2 ^ (52 : ℤ) := by
    rw [fractions_eq]
    norm_num
  constructor
  · rw [div_lt_iff₀ hpos, hfractions, ← zpow_one_add₀ two_ne_zero, ← zpow_add₀ two_ne_zero]
    refine hhi.trans_le (zpow_le_zpow_right₀ one_le_two ?_)
    have : leadingExponent num den - 52 ≤ unitExponent num den := le_max_right _ _
    omega
  · rcases max_choice (-1074) (leadingExponent num den - 52) with hmax | hmax
    · exact .inl hmax
    · right
      rw [le_div_iff₀ hpos, hfractions, ← zpow_add₀ two_ne_zero, unitExponent, hmax]
      simpa using hlo

/-- A ratio is rounded to the nearest value, where what is beyond all doubles counts as infinity. -/
theorem exists_nearest_ofRatio (s : Bool) (num : Nat) (hden : 0 < den) :
    ∃ w, Nearest value w (num / den) ∧
      ofRatio s num den = ofMagnitude s (min infinityMagnitude w) := by
  by_cases hnum : num = 0
  · subst hnum
    refine ⟨0, ?_, ?_⟩
    · rw [Nat.cast_zero, zero_div]
      exact nearest_zero
    · rw [ofRatio, if_pos rfl, Nat.min_zero]
  · obtain ⟨hlt, hfull⟩ := unitExponent_spec (Nat.pos_of_ne_zero hnum) hden
    let u := unitExponent num den
    let r := inUnits num den u
    let k := (u + 1074).toNat
    refine ⟨k * fractions + roundDiv r.1 r.2, ?_, by rw [ofRatio, if_neg hnum]⟩
    have hku : (k : ℤ) - 1074 = u := by
      have : -1074 ≤ u := le_max_left _ _
      omega
    have hratio : (num : ℚ) / den = r.1 / r.2 * 2 ^ ((k : ℤ) - 1074) := by
      rw [hku, inUnits_div, div_mul_cancel₀ _ (zpow_pos two_pos u).ne']
    rw [← inUnits_div] at hlt hfull
    rw [hratio]
    have hpos : 0 < r.2 := inUnits_pos hden u
    obtain ⟨hlow, hhigh⟩ := reaches_roundDiv r.1 hpos
    refine nearest_of_whole hlow hhigh hlt (hfull.imp_left fun hleast => ?_)
    have : u = -1074 := hleast
    omega

end CountedObjects.Double
