/-! Doubles as bit patterns, the exact values that the patterns stand for, and equality of those
values. -/
namespace CountedObjects

structure Double where
  bits : UInt64
  deriving DecidableEq, Repr

namespace Double

def signBit : Nat := 0x8000000000000000

/-- The number of fractions, `2 ^ 52`. -/
def fractions : Nat := 0x10000000000000

/-- The pattern of positive infinity. A greater magnitude is not a number. -/
def infinityMagnitude : Nat := 2047 * fractions

def ofMagnitude (negative : Bool) (w : Nat) : Double :=
  ⟨UInt64.ofNat ((if negative then signBit else 0) + w)⟩

def zero : Double := ofMagnitude false 0
def infinity (negative : Bool) : Double := ofMagnitude negative infinityMagnitude
def nan : Double := ofMagnitude false (infinityMagnitude + fractions / 2)

def isNegative (x : Double) : Bool := signBit ≤ x.bits.toNat

/-- The pattern without its sign bit. -/
def magnitude (x : Double) : Nat := x.bits.toNat % signBit

def isNaN (x : Double) : Bool := infinityMagnitude < x.magnitude
def isZero (x : Double) : Bool := x.magnitude == 0
def abs (x : Double) : Double := ofMagnitude false x.magnitude

/-- What a pattern stands for. A finite value is `significand * 2 ^ exponent` under its sign. -/
inductive Datum
  | nan
  | infinite (negative : Bool)
  | finite (negative : Bool) (significand : Nat) (exponent : Int)
  deriving DecidableEq, Repr

def datum (x : Double) : Datum :=
  let field : Nat := x.magnitude / fractions
  let fraction : Nat := x.magnitude % fractions
  if field = 2047 then
    if fraction = 0 then .infinite x.isNegative else .nan
  else if field = 0 then .finite x.isNegative fraction (-1074)
  else .finite x.isNegative (fractions + fraction) ((field : Int) - 1075)

/-- Equality of the values: a NaN equals nothing and the two zeros are equal. -/
def same (x y : Double) : Bool :=
  !x.isNaN && !y.isNaN && (x.bits == y.bits || (x.isZero && y.isZero))

/-- The pattern that stands for all patterns of an equal value. -/
def canonicalBits (x : Double) : UInt64 := if x.isZero then 0 else x.bits

/-- The double nearest to -10^100, which marks a missing value. -/
def emptyMark : Double := ⟨0xd4b249ad2594c37d⟩

def isEmpty (x : Double) : Bool := x.same emptyMark

end Double

end CountedObjects
