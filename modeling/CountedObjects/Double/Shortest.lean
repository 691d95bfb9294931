import CountedObjects.Double.Basic
import CountedObjects.Text.Numeral

/-! The shortest decimal that reads back as a given positive double. -/
namespace CountedObjects.Double

/-- The value `digits * 10 ^ exponent`. -/
structure Decimal where
  digits : Nat
  exponent : Int
  deriving DecidableEq, Repr

/-- The reals that round to one double: `value` and its two midpoints to the neighbours, all in
units of `2 ^ exponent`. The midpoints belong to the interval when a tie goes to the double. -/
structure RoundingInterval where
  low : Nat
  value : Nat
  high : Nat
  exponent : Int
  closed : Bool
  deriving DecidableEq, Repr

/-- The gap below a power of two is half the gap above, unless both are the smallest gap. -/
def roundingInterval (m : Nat) (e : Int) : RoundingInterval where
  low := if m = fractions ∧ -1074 < e then 4 * m - 1 else 4 * m - 2
  value := 4 * m
  high := 4 * m + 2
  exponent := e - 2
  closed := m % 2 == 0

namespace RoundingInterval

/-- One unit of the interval and one step of the grid `10 ^ k`, in a common measure. -/
def measures (i : RoundingInterval) (k : Int) : Nat × Nat :=
  (Nat.pow 10 (-k).toNat <<< i.exponent.toNat, Nat.pow 10 k.toNat <<< (-i.exponent).toNat)

def contains (i : RoundingInterval) (d : Decimal) : Bool :=
  let (unit, step) := i.measures d.exponent
  let p := d.digits * step
  if i.closed then i.low * unit ≤ p && p ≤ i.high * unit
  else i.low * unit < p && p < i.high * unit

/-- The point of the grid `10 ^ k` in the interval that is nearest to the value, the even one at
a tie. If any point of the grid is in the interval, so is one of the value's two neighbours. -/
def nearest? (i : RoundingInterval) (k : Int) : Option Decimal :=
  let (unit, step) := i.measures k
  let q := i.value * unit / step
  let r := i.value * unit % step
  let below : Decimal := ⟨q, k⟩
  let above : Decimal := ⟨q + 1, k⟩
  match i.contains below, i.contains above with
  | true, true => some (if 2 * r < step ∨ (2 * r = step ∧ q % 2 = 0) then below else above)
  | true, false => some below
  | false, true => some above
  | false, false => none

end RoundingInterval

/-- All the digits of `m * 2 ^ e`. -/
def exactDecimal (m : Nat) (e : Int) : Decimal :=
  if 0 ≤ e then ⟨m <<< e.toNat, 0⟩ else ⟨m * Nat.pow 5 (-e).toNat, e⟩

/-- An exponent `k` for which `m * 2 ^ e` is at most `10 ^ k`. -/
def topExponent (m : Nat) (e : Int) : Int :=
  let num := m <<< e.toNat
  let den : Nat := 1 <<< (-e).toNat
  if den ≤ num then (Text.digits (num / den)).length
  else 1 - (Text.digits (den / num)).length

/-- Tries coarse grids first, so the first hit has the fewest digits. -/
def shortest (m : Nat) (e : Int) : Decimal :=
  let i := roundingInterval m e
  let top := topExponent m e
  ((List.range 20).findSome? fun (n : Nat) => i.nearest? (top - n)).getD (exactDecimal m e)

end CountedObjects.Double
