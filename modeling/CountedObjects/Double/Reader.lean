import CountedObjects.Double.Rounding
import CountedObjects.Text.Numeral

/-! The grammar of written doubles and the correctly rounded value of each numeral. -/
namespace CountedObjects.Double

inductive ReadFault
  | empty | invalid
  deriving DecidableEq, Repr

def ReadFault.reason : ReadFault → String
  | .empty => "cannot parse float from empty string"
  | .invalid => "invalid float literal"

/-- A numeral as written, before rounding. -/
inductive Numeral
  | nan
  | infinite (negative : Bool)
  | decimal (negative : Bool) (digits : Nat) (exponent : Int)
  deriving DecidableEq, Repr

def isDigit (c : Char) : Bool := (Text.digitValue? c).isSome

/-- The number that a run of digits denotes. -/
def digitsValue (cs : List Char) : Nat :=
  cs.foldl (fun n c => n * 10 + (Text.digitValue? c).getD 0) 0

def takeSign : List Char → Bool × List Char
  | '+' :: cs => (false, cs)
  | '-' :: cs => (true, cs)
  | cs => (false, cs)

/-- The exponent part, which may be missing, but not without a digit once its mark is there. -/
def exponent? : List Char → Option Int
  | [] => some 0
  | c :: cs =>
    if c = 'e' ∨ c = 'E' then
      let (negative, ds) := takeSign cs
      if !ds.isEmpty && ds.all isDigit then
        some (if negative then -(digitsValue ds : Int) else digitsValue ds)
      else none
    else none

/-- Digits around an optional point, at least one of them, and an optional exponent. -/
def decimal? (negative : Bool) (cs : List Char) : Option Numeral :=
  let whole := cs.takeWhile isDigit
  let rest := cs.dropWhile isDigit
  let (fraction, rest) :=
    match rest with
    | '.' :: r => (r.takeWhile isDigit, r.dropWhile isDigit)
    | r => ([], r)
  if whole.isEmpty && fraction.isEmpty then none
  else (exponent? rest).map fun e =>
    .decimal negative (digitsValue (whole ++ fraction)) (e - fraction.length)

def unsigned? (negative : Bool) (cs : List Char) : Option Numeral :=
  let word := String.ofList (cs.map Char.toLower)
  if word = "inf" ∨ word = "infinity" then some (.infinite negative)
  else if word = "nan" then some .nan
  else decimal? negative cs

def Numeral.ofChars (cs : List Char) : Except ReadFault Numeral :=
  if cs.isEmpty then .error .empty
  else
    let (negative, rest) := takeSign cs
    match unsigned? negative rest with
    | some n => .ok n
    | none => .error .invalid

/-- The double nearest to `digits * 10 ^ exponent`. Scales that leave the range of doubles are
settled by the count of digits, before any power is computed. -/
def ofDecimal (negative : Bool) (digits : Nat) (exponent : Int) : Double :=
  let size : Int := (Text.digits digits).length + exponent
  if digits = 0 ∨ size < -400 then ofMagnitude negative 0
  else if 400 < size then infinity negative
  else ofRatio negative (digits * Nat.pow 10 exponent.toNat) (Nat.pow 10 (-exponent).toNat)

def Numeral.round : Numeral → Double
  | .nan => Double.nan
  | .infinite s => infinity s
  | .decimal s d e => ofDecimal s d e

def read (cs : List Char) : Except ReadFault Double :=
  (Numeral.ofChars cs).map Numeral.round

end CountedObjects.Double
