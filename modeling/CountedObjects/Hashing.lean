/-! A multiplicative 64-bit hash that takes in one machine word at a time. -/
namespace CountedObjects.Hashing

/-- Rotates left by a distance strictly between 0 and 64. -/
def rotateLeft (w distance : UInt64) : UInt64 :=
  (w <<< distance) ||| (w >>> (64 - distance))

def multiplier : UInt64 := 0x517cc1b727220a95

/-- The state after taking in the word `w`. -/
def add (state w : UInt64) : UInt64 := (rotateLeft state 5 ^^^ w) * multiplier

def word (w : UInt64) : UInt64 := add 0 w

def words (ws : List UInt64) : UInt64 := ws.foldl add 0

/-- The number whose base-256 digits are the given bytes, least significant first. -/
def littleEndian : List UInt8 → UInt64
  | [] => 0
  | b :: bs => b.toUInt64 + 256 * littleEndian bs

/-- Cuts bytes into words of eight; of what remains, four, then two, then one. -/
def chunks : List UInt8 → List UInt64
  | a :: b :: c :: d :: e :: f :: g :: h :: rest =>
    littleEndian [a, b, c, d, e, f, g, h] :: chunks rest
  | a :: b :: c :: d :: rest => littleEndian [a, b, c, d] :: chunks rest
  | a :: b :: rest => littleEndian [a, b] :: chunks rest
  | [a] => [a.toUInt64]
  | [] => []

/-- The bytes of a text are followed by a byte that no text contains. -/
def text (s : String) : UInt64 := words (chunks s.toUTF8.data.toList ++ [0xff])

end CountedObjects.Hashing
