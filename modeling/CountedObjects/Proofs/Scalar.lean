import CountedObjects.Scalar

/-! Equality of primitive values through a canonical value. Two values are equal exactly if they
have one canonical value and it is a number, and the hash is that of the canonical value. -/
namespace CountedObjects

namespace Double

variable {x y : Double}

def canonical (x : Double) : Double := ⟨x.canonicalBits⟩

theorem isNaN_of_isZero (h : x.isZero = true) : x.isNaN = false := by
  have hm : x.magnitude = 0 := beq_iff_eq.mp h
  rw [isNaN, hm]
  rfl

theorem isZero_of_bits_eq_zero (h : x.bits = 0) : x.isZero = true := by
  rw [isZero, magnitude, h]
  rfl

theorem isZero_congr (h : x.bits = y.bits) : x.isZero = y.isZero := by
  rw [isZero, isZero, magnitude, magnitude, h]

theorem isNaN_congr (h : x.bits = y.bits) : x.isNaN = y.isNaN := by
  rw [isNaN, isNaN, magnitude, magnitude, h]

/-- Only the two zeros are brought together. -/
theorem canonicalBits_eq_iff :
    x.canonicalBits = y.canonicalBits ↔ x.bits = y.bits ∨ x.isZero = true ∧ y.isZero = true := by
  unfold canonicalBits
  cases hx : x.isZero <;> cases hy : y.isZero
  · simp
  · have hne : x.bits ≠ y.bits := fun e => by simp [isZero_congr e, hy] at hx
    have hx0 : x.bits ≠ 0 := fun e => by simp [isZero_of_bits_eq_zero e] at hx
    simp [hne, hx0]
  · have hne : x.bits ≠ y.bits := fun e => by simp [isZero_congr e, hy] at hx
    have hy0 : 0 ≠ y.bits := fun e => by simp [isZero_of_bits_eq_zero e.symm] at hy
    simp [hne, hy0]
  · simp

theorem isNaN_canonical (x : Double) : x.canonical.isNaN = x.isNaN := by
  unfold canonical canonicalBits
  split
  · next hz =>
    rw [isNaN_of_isZero hz]
    rfl
  · rfl

theorem same_iff : x.same y = true ↔ x.isNaN = false ∧ x.canonical = y.canonical := by
  rw [canonical, canonical, mk.injEq, canonicalBits_eq_iff]
  simp only [same, Bool.and_eq_true, Bool.or_eq_true, beq_iff_eq, Bool.not_eq_true', and_assoc]
  refine and_congr_right fun hx => ⟨And.right, fun h => ⟨?_, h⟩⟩
  rcases h with hb | ⟨-, hy⟩
  · rwa [← isNaN_congr hb]
  · exact isNaN_of_isZero hy

end Double

namespace Scalar

variable {v w : Scalar}

def isNaN : Scalar → Bool
  | double x => x.isNaN
  | _ => false

/-- Positive zero in place of negative zero. -/
def canonical : Scalar → Scalar
  | double x => double x.canonical
  | v => v

theorem isNaN_canonical (v : Scalar) : v.canonical.isNaN = v.isNaN := by
  cases v with
  | double x => exact x.isNaN_canonical
  | _ => rfl

theorem kind_canonical (v : Scalar) : v.canonical.kind = v.kind := by
  cases v <;> rfl

theorem same_iff : v.same w = true ↔ v.isNaN = false ∧ v.canonical = w.canonical := by
  cases v with
  | double x =>
    cases w with
    | double y => simpa [same, isNaN, canonical] using Double.same_iff
    | _ => simp [same, canonical]
  | _ => cases w <;> simp [same, isNaN, canonical]

theorem hash_eq_of_canonical_eq (h : v.canonical = w.canonical) : v.hash = w.hash := by
  cases v with
  | double x =>
    cases w with
    | double y =>
      have hb : x.canonicalBits = y.canonicalBits := by simpa [canonical, Double.canonical] using h
      rw [hash, hash, hashWord, hashWord, hb]
    | _ => simp [canonical] at h
  | _ => cases w <;> simp_all [canonical]

end Scalar

end CountedObjects
