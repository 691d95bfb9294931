import CountedObjects.Double.Reader
import CountedObjects.Double.Written
import CountedObjects.Fault
import CountedObjects.Hashing

/-! The five kinds of primitive values: their text, equality, hash and reading. -/
namespace CountedObjects

inductive ScalarKind
  | bool | char | int | long | double
  deriving DecidableEq, Repr

inductive Scalar
  | bool (b : Bool)
  | char (c : Char)
  | int (n : Int32)
  | long (n : Int64)
  | double (x : Double)
  deriving DecidableEq

namespace ScalarKind

def name : ScalarKind → String
  | bool => "Bool"
  | char => "Char"
  | int => "Int32"
  | long => "Int64"
  | double => "Double"

@[reducible] def Value : ScalarKind → Type
  | bool => Bool
  | char => Char
  | int => Int32
  | long => Int64
  | double => Double

instance decidableEqValue : (k : ScalarKind) → DecidableEq k.Value
  | bool => inferInstanceAs (DecidableEq Bool)
  | char => inferInstanceAs (DecidableEq Char)
  | int => inferInstanceAs (DecidableEq Int32)
  | long => inferInstanceAs (DecidableEq Int64)
  | double => inferInstanceAs (DecidableEq Double)

def wrap : (k : ScalarKind) → k.Value → Scalar
  | bool, b => .bool b
  | char, c => .char c
  | int, n => .int n
  | long, n => .long n
  | double, x => .double x

def unwrap? : (k : ScalarKind) → Scalar → Option k.Value
  | bool, .bool b => some b
  | char, .char c => some c
  | int, .int n => some n
  | long, .long n => some n
  | double, .double x => some x
  | _, _ => none

def zero : (k : ScalarKind) → k.Value
  | bool => false
  | char => '\x00'
  | int => 0
  | long => 0
  | double => Double.zero

@[simp] theorem unwrap?_wrap (k : ScalarKind) (v : k.Value) : k.unwrap? (k.wrap v) = some v := by
  cases k <;> rfl

end ScalarKind

namespace Scalar

def kind : Scalar → ScalarKind
  | bool _ => .bool
  | char _ => .char
  | int _ => .int
  | long _ => .long
  | double _ => .double

/-- A character is written as its code point. -/
def text : Scalar → String
  | bool true => "True"
  | bool false => "False"
  | char c => Text.numeralText c.toNat
  | int n => Text.numeralText n.toInt
  | long n => Text.numeralText n.toInt
  | double x => x.text

/-- Equality within a kind; values of two kinds are never equal. -/
def same : Scalar → Scalar → Bool
  | bool a, bool b => a == b
  | char a, char b => a == b
  | int a, int b => a == b
  | long a, long b => a == b
  | double a, double b => a.same b
  | _, _ => false

/-- The word that is hashed; equal values give one word. -/
def hashWord : Scalar → UInt64
  | bool b => if b then 1 else 0
  | char c => UInt64.ofNat c.toNat
  | int n => n.toUInt32.toUInt64
  | long n => n.toUInt64
  | double x => x.canonicalBits

def hash (v : Scalar) : UInt64 := Hashing.word v.hashWord

/-- The integer that a scalar counts as when elements are ordered by number. -/
def number : Scalar → Int
  | bool b => if b then 1 else 0
  | char c => c.toNat
  | int n => n.toInt
  | long n => n.toInt
  | double _ => 0

end Scalar

namespace ScalarKind

private def readInteger {α : Type} (r : Text.NumeralRange) (f : Int → α) (cs : List Char) :
    Except String α :=
  match Text.readNumeral r cs with
  | .ok n => .ok (f n)
  | .error e => .error e.reason

private def readChar (cs : List Char) : Except String Char :=
  match readInteger .word32 Int.toNat cs with
  | .ok n =>
    if h : n.isValidChar then .ok (Char.ofNatAux n h) else .error "not a Unicode scalar value"
  | .error e => .error e

/-- Reads a scalar or says why not. Blanks around a number do not matter; those around a truth
value do. -/
def read (k : ScalarKind) (text : String) : Except String k.Value :=
  let cs := Text.trim text.toList
  match k with
  | bool =>
    if text = "True" then .ok true
    else if text = "False" then .ok false
    else .error "expected 'True' or 'False'"
  | char => readChar cs
  | int => readInteger .int32 Int32.ofInt cs
  | long => readInteger .int64 Int64.ofInt cs
  | double =>
    match Double.read cs with
    | .ok x => .ok x
    | .error e => .error e.reason

/-- The error shows the text as it was given. -/
def parse (k : ScalarKind) (text : String) : Except ObjectError k.Value :=
  match k.read text with
  | .ok v => .ok v
  | .error r => .error (.parse text k.name r)

end ScalarKind

/-- The least 64-bit integer, which marks a missing value. -/
def isEmptyLong (n : Int64) : Bool := n == Int64.minValue

end CountedObjects
