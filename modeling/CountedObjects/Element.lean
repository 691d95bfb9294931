import CountedObjects.Cast
import CountedObjects.Equality

/-! Elements of collections: how they are compared, hashed and recovered from objects. -/
namespace CountedObjects.ElementType

/-- Equality of elements. Handles are compared by identity, keys by equality of objects. -/
def same (s : Store) : (t : ElementType) → t.Value → t.Value → Bool
  | scalar k, v, w => (k.wrap v).same (k.wrap w)
  | string, v, w => v == w
  | object, v, w => v == w
  | key, v, w => s.equals v w
  | pointer _, v, w => v == w
  | option _, none, none => true
  | option t, some v, some w => t.same s v w
  | option _, _, _ => false

def hash (s : Store) : (t : ElementType) → t.Value → UInt64
  | scalar k, v => (k.wrap v).hash
  | string, v => Hashing.text v
  | object, v => v.addressHash
  | key, v => s.keyHash v
  | pointer _, v => v.addressHash
  | option _, none => Hashing.word 0
  | option t, some v => Hashing.add (Hashing.word 1) (t.hash s v)

def keying (s : Store) (t : ElementType) : Keying t.Value := ⟨t.hash s, t.same s⟩

/-- The text of the object that an element becomes. -/
def display (s : Store) : (t : ElementType) → t.Value → Result String
  | scalar k, v => .ok (k.wrap v).text
  | string, v => .ok v
  | object, v => s.display v
  | key, v => s.display v
  | pointer _, v => s.display v
  | option _, none => .ok ""
  | option t, some v => t.display s v

/-- The integer that an element counts as in an order by number. -/
def number (s : Store) : (t : ElementType) → t.Value → Result Int
  | scalar k, v => .ok (k.wrap v).number
  | string, _ => .ok 0
  | object, v => s.number v
  | key, v => s.number v
  | pointer _, v => s.number v
  | option _, none => .ok 0
  | option t, some v => t.number s v

/-- The kind that an object is converted from, unless every kind will do. -/
def required? : ElementType → Option Kind
  | scalar k => some (.scalar k)
  | string => some .string
  | object | key => none
  | pointer k => some k
  | option t => t.required?

/-- The element that an object stands for. Null stands for a missing optional element. -/
def ofObject (s : Store) : (t : ElementType) → Handle → Result t.Value
  | scalar k, h => s.unbox k h
  | string, h => s.unboxText h
  | object, h => .ok h
  | key, h => .ok h
  | pointer k, h => s.tryCast k h
  | option t, h => if h.isNull then .ok none else (t.ofObject s h).map some

/-- Converts in order and stops at the first failure. -/
def ofObjects (s : Store) (t : ElementType) (hs : List Handle) : Result (List t.Value) :=
  hs.mapM (t.ofObject s)

end CountedObjects.ElementType
