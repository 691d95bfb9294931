import Mathlib.Algebra.Order.Field.Rat
import Mathlib.Tactic.Linarith

/-! The nearest value of an increasing sequence, where of two that are equally near the one with the
even number is taken. It is told by the midpoints to the neighbours, and there is at most one. -/
namespace CountedObjects

/-- Among the values of `f` that of `w` is nearest to `q`, and `w` is even if another is as near. -/
structure Nearest (f : ℕ → ℚ) (w : ℕ) (q : ℚ) : Prop where
  le : ∀ v, |f w - q| ≤ |f v - q|
  even : ∀ v, |f v - q| = |f w - q| → v = w ∨ w % 2 = 0

/-- A bound that belongs to what is bounded if the number `w` is even. -/
def Reaches (w : ℕ) (p q : ℚ) : Prop := p < q ∨ p = q ∧ w % 2 = 0

namespace Reaches

variable {w : ℕ} {p q r : ℚ}

theorem le (h : Reaches w p q) : p ≤ q := by
  rcases h with h | h
  · exact h.le
  · exact h.1.le

theorem of_le_of_reaches (h : p ≤ q) (h' : Reaches w q r) : Reaches w p r := by
  rcases h' with hlt | ⟨rfl, heven⟩
  · exact .inl (h.trans_lt hlt)
  · rcases h.lt_or_eq with hlt | heq
    · exact .inl hlt
    · exact .inr ⟨heq, heven⟩

theorem of_reaches_of_le (h : Reaches w p q) (h' : q ≤ r) : Reaches w p r := by
  rcases h with hlt | ⟨rfl, heven⟩
  · exact .inl (hlt.trans_le h')
  · rcases h'.lt_or_eq with hlt | heq
    · exact .inl hlt
    · exact .inr ⟨heq, heven⟩

end Reaches

namespace Nearest

variable {f : ℕ → ℚ} {v w : ℕ} {q : ℚ}

theorem reaches_below (hf : StrictMono f) (h : Nearest f w q) (hv : v < w) :
    Reaches w (f v + f w) (2 * q) := by
  have hlt := hf hv
  have hle := h.le v
  rcases lt_trichotomy (f v + f w) (2 * q) with hm | hm | hm
  · exact .inl hm
  · have htie : |f v - q| = |f w - q| := by
      rw [show f v - q = -(f w - q) by linarith, abs_neg]
    rcases h.even v htie with heq | heven
    · omega
    · exact .inr ⟨hm, heven⟩
  · rw [abs_of_pos (by linarith : 0 < f w - q)] at hle
    rcases le_abs.mp hle with h' | h' <;> linarith

theorem reaches_above (hf : StrictMono f) (h : Nearest f w q) (hv : w < v) :
    Reaches w (2 * q) (f w + f v) := by
  have hlt := hf hv
  have hle := h.le v
  rcases lt_trichotomy (2 * q) (f w + f v) with hm | hm | hm
  · exact .inl hm
  · have htie : |f v - q| = |f w - q| := by
      rw [show f v - q = -(f w - q) by linarith, abs_neg]
    rcases h.even v htie with heq | heven
    · omega
    · exact .inr ⟨hm, heven⟩
  · rw [abs_of_neg (by linarith : f w - q < 0)] at hle
    rcases le_abs.mp hle with h' | h' <;> linarith

/-- On its side of the midpoint a value is nearer than the one on the other side. -/
theorem of_midpoints (hf : StrictMono f)
    (below : ∀ v < w, Reaches w (f v + f w) (2 * q))
    (above : ∀ v > w, Reaches w (2 * q) (f w + f v)) : Nearest f w q := by
  have hcases : ∀ v, |f w - q| < |f v - q| ∨ |f w - q| = |f v - q| ∧ (v = w ∨ w % 2 = 0) := by
    intro v
    rcases lt_trichotomy v w with hv | rfl | hv
    · have hlt := hf hv
      rcases below v hv with h | ⟨h, heven⟩
      · left
        rw [abs_of_neg (by linarith : f v - q < 0), abs_lt]
        constructor <;> linarith
      · right
        rw [show f v - q = -(f w - q) by linarith, abs_neg]
        exact ⟨rfl, .inr heven⟩
    · exact .inr ⟨rfl, .inl rfl⟩
    · have hlt := hf hv
      rcases above v hv with h | ⟨h, heven⟩
      · left
        rw [abs_of_pos (by linarith : 0 < f v - q), abs_lt]
        constructor <;> linarith
      · right
        rw [show f v - q = -(f w - q) by linarith, abs_neg]
        exact ⟨rfl, .inr heven⟩
  constructor
  · intro v
    rcases hcases v with h | h
    · exact h.le
    · exact h.1.le
  · intro v htie
    rcases hcases v with h | h
    · exact absurd htie h.ne'
    · exact h.2

/-- The midpoints to the next values below and above decide. -/
theorem of_neighbours (hf : StrictMono f)
    (below : ∀ v, v + 1 = w → Reaches w (f v + f w) (2 * q))
    (above : Reaches w (2 * q) (f w + f (w + 1))) : Nearest f w q := by
  refine of_midpoints hf (fun v hv => ?_) fun v hv => ?_
  · have hmono : f v ≤ f (w - 1) := hf.monotone (by omega)
    exact .of_le_of_reaches (by linarith) (below (w - 1) (by omega))
  · have hmono : f (w + 1) ≤ f v := hf.monotone hv
    exact above.of_reaches_of_le (by linarith)

/-- What lies between two numbers that are rounded to one value is rounded to it too. -/
theorem between {p r : ℚ} (hf : StrictMono f) (hp : Nearest f w p) (hr : Nearest f w r)
    (hpq : p ≤ q) (hqr : q ≤ r) : Nearest f w q :=
  of_midpoints hf (fun _ hv => (hp.reaches_below hf hv).of_reaches_of_le (by linarith))
    fun _ hv => .of_le_of_reaches (by linarith) (hr.reaches_above hf hv)

theorem not_lt_of_nearest (hf : StrictMono f) (hv : Nearest f v q) (hw : Nearest f w q) :
    ¬ v < w := by
  intro hlt
  have hbelow := hw.reaches_below hf hlt
  have habove := hv.reaches_above hf hlt
  have hmid := le_antisymm hbelow.le habove.le
  -- Both are even, so that the value after the first one is nearer than it.
  have hw : w % 2 = 0 := hbelow.resolve_left hmid.not_lt |>.2
  have hv' : v % 2 = 0 := habove.resolve_left hmid.not_gt |>.2
  have hnext := hf (show v + 1 < w by omega)
  have := (hv.reaches_above hf (Nat.lt_succ_self v)).le
  linarith

theorem unique (hf : StrictMono f) (hv : Nearest f v q) (hw : Nearest f w q) : v = w :=
  Nat.le_antisymm (Nat.not_lt.mp (not_lt_of_nearest hf hw hv))
    (Nat.not_lt.mp (not_lt_of_nearest hf hv hw))

end Nearest

end CountedObjects
