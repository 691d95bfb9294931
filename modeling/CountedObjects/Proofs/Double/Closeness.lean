import CountedObjects.Proofs.Double.Reading
import CountedObjects.Proofs.Store.Equality
import CountedObjects.Session.Run

/-! Approximate equality of doubles. The difference of two finite values is rounded once, so two
values are approximately equal if their exact distance is rounded to at most the tolerance. -/
namespace CountedObjects.Double

variable {x y : Double} {p q : ℚ} {s t : Bool} {m n w : Nat} {e f u : Int}

/-- A value in units that are not larger than its own. -/
theorem shifted_mul (s : Bool) (m : Nat) (h : u ≤ e) :
    (shifted s m e u : ℚ) * 2 ^ u = withSign s (m * 2 ^ e) := by
  have hpow : (2 : ℚ) ^ (e - u).toNat * 2 ^ u = 2 ^ e := by
    rw [← zpow_natCast, ← zpow_add₀ two_ne_zero]
    congr 1
    omega
  unfold shifted withSign
  rw [Nat.shiftLeft_eq]
  split
  · push_cast
    rw [neg_mul, mul_assoc, hpow]
  · push_cast
    rw [mul_assoc, hpow]

/-- The exact difference as the ratio that is rounded. -/
theorem abs_difference (d u : Int) :
    ((d.natAbs <<< u.toNat : ℕ) : ℚ) / (1 <<< (-u).toNat : ℕ) = |(d : ℚ) * 2 ^ u| := by
  have hpos : (0 : ℚ) < 2 ^ u := zpow_pos two_pos u
  rw [abs_mul, abs_of_pos hpos, zpow_eq_div 2 u, Nat.shiftLeft_eq, Nat.shiftLeft_eq, one_mul]
  push_cast
  rw [Nat.cast_natAbs, Int.cast_abs]
  ring

theorem datum_of_number? (h : x.number? = some p) :
    ∃ s m e, x.datum = .finite s m e ∧ p = withSign s (m * 2 ^ e) := by
  unfold number? at h
  split at h
  · next s m e hx =>
    cases h
    exact ⟨s, m, e, hx, rfl⟩
  · cases h
  · cases h

/-- The distance of two finite values is rounded to the nearest value. -/
theorem exists_nearest_sub (hx : x.number? = some p) (hy : y.number? = some q) :
    ∃ s w, Nearest value w |p - q| ∧ x.sub y = ofMagnitude s (min infinityMagnitude w) := by
  obtain ⟨s, m, e, hdx, rfl⟩ := datum_of_number? hx
  obtain ⟨t, n, f, hdy, rfl⟩ := datum_of_number? hy
  let u := min e f
  let d := shifted s m e u - shifted t n f u
  have hden : 0 < 1 <<< (-u).toNat := by
    rw [Nat.shiftLeft_eq]
    positivity
  have hdistance : |withSign s (m * 2 ^ e) - withSign t (n * 2 ^ f)| = |(d : ℚ) * 2 ^ u| := by
    rw [← shifted_mul s m (min_le_left e f), ← shifted_mul t n (min_le_right e f), ← sub_mul]
    push_cast [d]
    rfl
  obtain ⟨w, hw, heq⟩ := exists_nearest_ofRatio (d < 0) (d.natAbs <<< u.toNat) hden
  refine ⟨decide (d < 0), w, ?_, ?_⟩
  · rwa [hdistance, ← abs_difference]
  · unfold sub
    rw [hdx, hdy]
    exact heq

/-- A difference from or to what is no number is none. -/
theorem infinity_le_sub (h : x.number? = none ∨ y.number? = none) :
    infinityMagnitude ≤ (x.sub y).magnitude := by
  have hnan : infinityMagnitude ≤ nan.magnitude := by decide
  have hinfinity : ∀ s, infinityMagnitude ≤ (infinity s).magnitude := by decide
  unfold number? at h
  unfold sub
  cases hx : x.datum with
  | nan => exact hnan
  | infinite s =>
    cases hy : y.datum with
    | nan => exact hnan
    | infinite t =>
      dsimp only
      split
      · exact hnan
      · exact hinfinity s
    | finite t n f => exact hinfinity s
  | finite s m e =>
    rw [hx] at h
    cases hy : y.datum with
    | nan => exact hnan
    | infinite t => exact hinfinity !t
    | finite t n f =>
      rw [hy] at h
      rcases h with h | h <;> cases h

theorem tolerance_lt : tolerance.magnitude < infinityMagnitude := by decide

theorem approxEq_eq_true_iff :
    x.approxEq y = true ↔ (x.sub y).magnitude ≤ tolerance.magnitude := by
  have hsign := magnitude_lt (x.sub y)
  have htolerance := tolerance_lt
  unfold approxEq abs
  rw [Bool.and_eq_true, Bool.not_eq_true', decide_eq_true_iff, isNaN, decide_eq_false_iff_not,
    magnitude_ofMagnitude false hsign]
  omega

/-- Two values are approximately equal if both are finite and their distance is rounded to one that
is not above the tolerance. -/
theorem approxEq_iff_nearest : x.approxEq y = true ↔
    ∃ p q w, x.number? = some p ∧ y.number? = some q ∧ Nearest value w |p - q| ∧
      w ≤ tolerance.magnitude := by
  have htolerance := tolerance_lt
  have hinfinity : infinityMagnitude < signBit := by decide
  rw [approxEq_eq_true_iff]
  constructor
  · intro hle
    have hfinite : ¬ (x.number? = none ∨ y.number? = none) := by
      intro hnone
      have := infinity_le_sub hnone
      omega
    obtain ⟨hx, hy⟩ := not_or.mp hfinite
    obtain ⟨p, hp⟩ := Option.ne_none_iff_exists'.mp hx
    obtain ⟨q, hq⟩ := Option.ne_none_iff_exists'.mp hy
    obtain ⟨s, w, hw, heq⟩ := exists_nearest_sub hp hq
    have hsign : min infinityMagnitude w < signBit := by omega
    rw [heq, magnitude_ofMagnitude s hsign] at hle
    exact ⟨p, q, w, hp, hq, hw, by omega⟩
  · rintro ⟨p, q, w, hp, hq, hw, hle⟩
    obtain ⟨s, v, hv, heq⟩ := exists_nearest_sub hp hq
    obtain rfl : v = w := hv.unique strictMono_value hw
    have hsign : min infinityMagnitude v < signBit := by omega
    rw [heq, magnitude_ofMagnitude s hsign]
    omega

theorem approxEq_comm (x y : Double) : x.approxEq y = y.approxEq x := by
  have himp : ∀ x y : Double, x.approxEq y = true → y.approxEq x = true := by
    intro x y h
    obtain ⟨p, q, w, hp, hq, hw, hle⟩ := approxEq_iff_nearest.mp h
    rw [abs_sub_comm] at hw
    exact approxEq_iff_nearest.mpr ⟨q, p, w, hq, hp, hw, hle⟩
  rw [Bool.eq_iff_iff]
  exact ⟨himp x y, himp y x⟩

theorem number?_of_isZero (h : x.isZero = true) : x.number? = some 0 := by
  have hx : x.magnitude = 0 := by simpa [isZero] using h
  have hvalue : value 0 = 0 := by
    unfold value units
    rw [if_pos (by decide), Nat.cast_zero, zero_mul]
  rw [eq_ofMagnitude x, hx, number?_ofMagnitude _ (by decide), hvalue]
  cases x.isNegative <;> simp [withSign]

theorem eq_infinity (hnan : x.isNaN = false) (hx : x.number? = none) :
    x = infinity x.isNegative := by
  have hle : x.magnitude ≤ infinityMagnitude := by simpa [isNaN] using hnan
  have hge : infinityMagnitude ≤ x.magnitude := by
    by_contra hlt
    have hnumber := number?_ofMagnitude x.isNegative (Nat.lt_of_not_le hlt)
    rw [← eq_ofMagnitude, hx] at hnumber
    cases hnumber
  have heq := eq_ofMagnitude x
  rwa [Nat.le_antisymm hle hge] at heq

/-- Doubles that are equal stand for one number, or are one infinity. -/
theorem number?_eq_of_same (h : x.same y = true) :
    (∃ p, x.number? = some p ∧ y.number? = some p) ∨ ∃ s, x = infinity s ∧ y = infinity s := by
  have hcases : x.isNaN = false ∧ (x = y ∨ x.isZero = true ∧ y.isZero = true) := by
    obtain ⟨a⟩ := x
    obtain ⟨b⟩ := y
    simp only [same, Bool.and_eq_true, Bool.or_eq_true, Bool.not_eq_true', beq_iff_eq] at h
    obtain ⟨⟨hx, -⟩, h⟩ := h
    exact ⟨hx, h.imp_left (congrArg _)⟩
  obtain ⟨hnan, rfl | ⟨hx, hy⟩⟩ := hcases
  · cases hx : x.number? with
    | some p => exact .inl ⟨p, rfl, rfl⟩
    | none => exact .inr ⟨_, eq_infinity hnan hx, eq_infinity hnan hx⟩
  · exact .inl ⟨0, number?_of_isZero hx, number?_of_isZero hy⟩

theorem approxEq_of_number? (hx : x.number? = some p) (hy : y.number? = some p) :
    x.approxEq y = true := by
  refine approxEq_iff_nearest.mpr ⟨p, p, 0, hx, hy, ?_, Nat.zero_le _⟩
  rw [sub_self, abs_zero]
  exact nearest_zero

theorem number?_infinity (s : Bool) : (infinity s).number? = none := by cases s <;> decide

theorem approxEq_infinity (s : Bool) (y : Double) : (infinity s).approxEq y = false := by
  have hle := infinity_le_sub (y := y) (.inl (number?_infinity s))
  have htolerance := tolerance_lt
  rw [← Bool.not_eq_true, approxEq_eq_true_iff]
  omega

/-- Approximate equality is symmetric. Two boxes that are equal hold approximately equal doubles,
unless they hold an infinity, which is not approximately equal to itself. -/
structure Approximates (x y : Double) : Prop where
  nearest : x.approxEq y = true ↔ ∃ p q w, x.number? = some p ∧ y.number? = some q ∧
    Nearest value w |p - q| ∧ w ≤ tolerance.magnitude
  comm : x.approxEq y = y.approxEq x
  equals : ∀ (s : Store) a b, s.body? a = some (.boxed (.double x)) →
    s.body? b = some (.boxed (.double y)) → s.equals a b = true →
      (x.approxEq y = true ↔ ∀ negative, x ≠ infinity negative)

theorem approximates (x y : Double) : x.Approximates y where
  nearest := approxEq_iff_nearest
  comm := approxEq_comm x y
  equals s a b ha hb hab := by
    have hsame : x.same y = true := (Store.equals_boxed ha hb).mp hab
    rcases number?_eq_of_same hsame with ⟨p, hx, hy⟩ | ⟨negative, rfl, rfl⟩
    · refine iff_of_true (approxEq_of_number? hx hy) ?_
      rintro negative rfl
      cases (number?_infinity negative).symm.trans hx
    · refine iff_of_false ?_ fun h => h negative rfl
      rw [approxEq_infinity]
      exact Bool.false_ne_true

/-- Two boxes of infinity are equal, but the distance of what they hold is no number. -/
theorem equals_infinity_not_approxEq :
    ∃ steps a b,
      let s := (Session.start.advanceAll steps).2.store
      s.body? a = some (.boxed (.double (infinity false))) ∧
        s.body? b = some (.boxed (.double (infinity false))) ∧ s.equals a b = true ∧
        (infinity false).approxEq (infinity false) = false := by
  have ha : (Session.start.advanceAll [.handle (.new "a" (.scalar (.double (infinity false)))),
      .handle (.new "b" (.scalar (.double (infinity false))))]).2.store.body? (.object 0) =
        some (.boxed (.double (infinity false))) := by decide +kernel
  have hb : (Session.start.advanceAll [.handle (.new "a" (.scalar (.double (infinity false)))),
      .handle (.new "b" (.scalar (.double (infinity false))))]).2.store.body? (.object 1) =
        some (.boxed (.double (infinity false))) := by decide +kernel
  exact ⟨_, _, _, ha, hb, (Store.equals_boxed ha hb).mpr (by decide), approxEq_infinity false _⟩

end CountedObjects.Double
