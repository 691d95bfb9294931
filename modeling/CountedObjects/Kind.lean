import CountedObjects.Scalar

/-! The concrete kinds of objects and the types of elements that collections hold. -/
namespace CountedObjects

mutual

inductive Kind
  | scalar (k : ScalarKind)
  | string
  | plain
  | type
  | enumValue
  | pair
  | list (t : ElementType)
  | queue (t : ElementType)
  | hashSet (t : ElementType)
  | dictionary (k v : ElementType)
  | tracked
  | dyn
  | animal
  | dog
  deriving DecidableEq

/-- An `object` is told apart by identity, a `key` by the equality of objects. A `pointer` is a
handle known to be null or of one kind. -/
inductive ElementType
  | scalar (k : ScalarKind)
  | string
  | object
  | key
  | pointer (k : Kind)
  | option (t : ElementType)
  deriving DecidableEq

end

/-- What a descriptor is the descriptor of. -/
inductive TypeId
  | object
  | enumRoot
  | kind (k : Kind)
  | enumeration (n : Nat)
  | custom (n : Nat)
  deriving DecidableEq

def ScalarKind.code : ScalarKind → UInt64
  | bool => 1
  | char => 2
  | int => 3
  | long => 4
  | double => 5

mutual

def Kind.code : Kind → List UInt64
  | .scalar k => [k.code]
  | .string => [6]
  | .plain => [7]
  | .type => [8]
  | .enumValue => [9]
  | .pair => [10]
  | .list t => 11 :: t.code
  | .queue t => 12 :: t.code
  | .hashSet t => 13 :: t.code
  | .dictionary k v => 14 :: (k.code ++ v.code)
  | .tracked => [15]
  | .dyn => [16]
  | .animal => [17]
  | .dog => [18]

def ElementType.code : ElementType → List UInt64
  | .scalar k => [k.code]
  | .string => [6]
  | .object => [19]
  | .key => [20]
  | .pointer k => 21 :: k.code
  | .option t => 22 :: t.code

end

def TypeId.code : TypeId → List UInt64
  | object => [1]
  | enumRoot => [2]
  | kind k => 3 :: k.code
  | enumeration n => [4, UInt64.ofNat n]
  | custom n => [5, UInt64.ofNat n]

/-- The first word keeps types apart from small numbers. -/
def TypeId.hash (i : TypeId) : UInt64 := Hashing.words (0x9e3779b97f4a7c15 :: i.code)

end CountedObjects
