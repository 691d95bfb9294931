import CountedObjects.Double.Shortest

/-! The text form of a double: positional for moderate sizes, scientific beyond. -/
namespace CountedObjects.Double

/-- Which decimals are written positionally, by the place of the point relative to the first
digit: from just after `leadingZeros` zeros up to the place `wholeDigits`. -/
structure Layout where
  leadingZeros : Nat
  wholeDigits : Nat
  exponentMark : Char

/-- A point within sixteen whole digits or within four leading zeros is written out. -/
def layout : Layout := ⟨4, 16, 'e'⟩

def scientific (l : Layout) (ds : List Char) (power : Int) : List Char :=
  let fraction := ds.drop 1
  ds.take 1 ++ (if fraction.isEmpty then [] else '.' :: fraction)
    ++ l.exponentMark :: Text.numeral power

/-- Writes the digits `ds` scaled by `10 ^ exponent`. -/
def positional (l : Layout) (ds : List Char) (exponent : Int) : List Char :=
  let point : Int := ds.length + exponent
  if 0 ≤ exponent ∧ point ≤ l.wholeDigits then
    ds ++ List.replicate exponent.toNat '0' ++ ['.', '0']
  else if 0 < point ∧ point ≤ l.wholeDigits then
    ds.take point.toNat ++ '.' :: ds.drop point.toNat
  else if -(l.leadingZeros : Int) ≤ point ∧ point ≤ 0 then
    '0' :: '.' :: List.replicate (-point).toNat '0' ++ ds
  else scientific l ds (point - 1)

def Decimal.write (l : Layout) (d : Decimal) : List Char :=
  positional l (Text.digits d.digits) d.exponent

def signed (negative : Bool) (cs : List Char) : List Char :=
  if negative then '-' :: cs else cs

/-- A NaN is written without a sign. -/
def write (x : Double) : List Char :=
  match x.datum with
  | .nan => "NaN".toList
  | .infinite s => signed s "inf".toList
  | .finite s 0 _ => signed s "0.0".toList
  | .finite s m e => signed s ((shortest m e).write layout)

def text (x : Double) : String := String.ofList x.write

end CountedObjects.Double
