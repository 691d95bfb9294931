import CountedObjects.Text.Blank

/-! Decimal numerals of integers: the canonical writer, and a reader that names the
first thing wrong with a text. -/
namespace CountedObjects.Text

def digitChar (d : Nat) : Char := Char.ofNat (48 + d)

def digitValue? (c : Char) : Option Nat :=
  if '0' ≤ c ∧ c ≤ '9' then some (c.toNat - 48) else none

/-- The digits of a number, most significant first, with no leading zero. -/
def digits (n : Nat) : List Char :=
  if n < 10 then [digitChar n] else digits (n / 10) ++ [digitChar (n % 10)]

def numeral : Int → List Char
  | .ofNat n => digits n
  | .negSucc n => '-' :: digits (n + 1)

def numeralText (n : Int) : String := String.ofList (numeral n)

inductive NumeralFault
  | empty | invalidDigit | tooLarge | tooSmall
  deriving DecidableEq, Repr

namespace NumeralFault

def reason : NumeralFault → String
  | empty => "cannot parse integer from empty string"
  | invalidDigit => "invalid digit found in string"
  | tooLarge => "number too large to fit in target type"
  | tooSmall => "number too small to fit in target type"

end NumeralFault

/-- A range of integers around zero. Only a range that goes below zero admits a minus sign. -/
structure NumeralRange where
  below : Nat
  above : Nat

namespace NumeralRange

def int32 : NumeralRange := ⟨0x80000000, 0x7fffffff⟩
def int64 : NumeralRange := ⟨0x8000000000000000, 0x7fffffffffffffff⟩
def word32 : NumeralRange := ⟨0, 0xffffffff⟩

def Contains (r : NumeralRange) (n : Int) : Prop := -(r.below : Int) ≤ n ∧ n ≤ r.above

end NumeralRange

/-- Reads digits from the left. Each character is first asked to be a digit, then the number
so far to stay within the limit, so the earliest failure is the one reported. -/
def readDigits (limit : Nat) (beyond : NumeralFault) : Nat → List Char → Except NumeralFault Nat
  | acc, [] => .ok acc
  | acc, c :: cs =>
    match digitValue? c with
    | none => .error .invalidDigit
    | some d =>
      if limit < acc * 10 + d then .error beyond
      else readDigits limit beyond (acc * 10 + d) cs

def readMagnitude (limit : Nat) (beyond : NumeralFault) : List Char → Except NumeralFault Nat
  | [] => .error .invalidDigit
  | cs => readDigits limit beyond 0 cs

def readNumeral (r : NumeralRange) : List Char → Except NumeralFault Int
  | [] => .error .empty
  | '+' :: cs => (readMagnitude r.above .tooLarge cs).map Int.ofNat
  | '-' :: cs =>
    if r.below = 0 then .error .invalidDigit
    else (readMagnitude r.below .tooSmall cs).map (fun n => -(n : Int))
  | cs => (readMagnitude r.above .tooLarge cs).map Int.ofNat

end CountedObjects.Text
