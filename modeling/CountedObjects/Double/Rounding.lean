import CountedObjects.Double.Basic

/-! Rounding of nonnegative rationals to the nearest double, ties to even, and differences. -/
namespace CountedObjects.Double

/-- The integer nearest to `n / d`, the even one at a midpoint. -/
def roundDiv (n d : Nat) : Nat :=
  let q := n / d
  let r := n % d
  if 2 * r < d then q
  else if d < 2 * r then q + 1
  else q + q % 2

/-- `num / den` in units of `2 ^ e`, again as a ratio. -/
def inUnits (num den : Nat) (e : Int) : Nat × Nat :=
  (num <<< (-e).toNat, den <<< e.toNat)

/-- The exponent of the leading binary digit of `num / den`. -/
def leadingExponent (num den : Nat) : Int :=
  let e : Int := num.log2 - den.log2
  let r := inUnits num den e
  if r.1 < r.2 then e - 1 else e

/-- The exponent of the last place a double keeps of `num / den`. -/
def unitExponent (num den : Nat) : Int :=
  max (-1074) (leadingExponent num den - 52)

/-- The double nearest to `num / den`. The rounded count of units is added to the exponent field,
so a carry out of the significand raises the exponent, and past the last one gives infinity. -/
def ofRatio (negative : Bool) (num den : Nat) : Double :=
  if num = 0 then ofMagnitude negative 0
  else
    let e := unitExponent num den
    let r := inUnits num den e
    ofMagnitude negative
      (min infinityMagnitude ((e + 1074).toNat * fractions + roundDiv r.1 r.2))

/-- `m * 2 ^ e` as a whole number of units `2 ^ u`, for `u` at most `e`. -/
def shifted (negative : Bool) (m : Nat) (e u : Int) : Int :=
  let n : Nat := m <<< (e - u).toNat
  if negative then -n else n

/-- The exact difference of two values, rounded once. -/
def sub (x y : Double) : Double :=
  match x.datum, y.datum with
  | .nan, _ | _, .nan => nan
  | .infinite s, .infinite t => if s = t then nan else infinity s
  | .infinite s, .finite .. => infinity s
  | .finite .., .infinite t => infinity !t
  | .finite s m e, .finite t n f =>
    let u := min e f
    let d := shifted s m e u - shifted t n f u
    ofRatio (d < 0) (d.natAbs <<< u.toNat) (1 <<< (-u).toNat)

/-- The double nearest to 10^-10. -/
def tolerance : Double := ⟨0x3ddb7cdfd9d7bdbb⟩

/-- Whether the rounded distance of two values is within the tolerance. -/
def approxEq (x y : Double) : Bool :=
  let d := (x.sub y).abs
  !d.isNaN && d.magnitude ≤ tolerance.magnitude

end CountedObjects.Double
