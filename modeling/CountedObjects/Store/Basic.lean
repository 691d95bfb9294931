import CountedObjects.Registry
import CountedObjects.Table

/-! Objects, the handles that refer to them, and the store that counts the handles. -/
namespace CountedObjects

/-- A reference to an object or to nothing. Descriptors are objects that the store does not
count. -/
inductive Handle
  | null
  | type (d : Descriptor)
  | object (id : Nat)
  deriving DecidableEq

def Handle.isNull : Handle → Bool
  | null => true
  | _ => false

def Handle.ofType : TypeHandle → Handle
  | some d => .type d
  | none => .null

namespace ElementType

/-- The values of an element type. -/
@[reducible] def Value : ElementType → Type
  | scalar k => k.Value
  | string => String
  | object => Handle
  | key => Handle
  | pointer _ => Handle
  | option t => Option t.Value

instance decidableEqValue : (t : ElementType) → DecidableEq t.Value
  | scalar k => inferInstanceAs (DecidableEq k.Value)
  | string => inferInstanceAs (DecidableEq String)
  | object | key | pointer _ => inferInstanceAs (DecidableEq Handle)
  | option t =>
    have := t.decidableEqValue
    inferInstanceAs (DecidableEq (Option t.Value))

/-- The handles that a value holds. -/
def owned : (t : ElementType) → t.Value → List Handle
  | scalar _, _ => []
  | string, _ => []
  | object, h => [h]
  | key, h => [h]
  | pointer _, h => [h]
  | option _, none => []
  | option t, some v => t.owned v

end ElementType

/-- What a collection holds at a time. -/
inductive Contents
  | list (t : ElementType) (items : List t.Value)
  | queue (t : ElementType) (items : List t.Value)
  | hashSet (t : ElementType) (slots : List (Slot t.Value Unit))
  | dictionary (k v : ElementType) (slots : List (Slot k.Value v.Value))
  deriving DecidableEq

namespace Contents

def kind : Contents → Kind
  | list t _ => .list t
  | queue t _ => .queue t
  | hashSet t _ => .hashSet t
  | dictionary k v _ => .dictionary k v

def owned : Contents → List Handle
  | list t xs => xs.flatMap t.owned
  | queue t xs => xs.flatMap t.owned
  | hashSet t ss => ss.flatMap fun s => t.owned s.key
  | dictionary k v ss => ss.flatMap fun s => k.owned s.key ++ v.owned s.value

/-- The number of elements. -/
def count : Contents → Nat
  | list _ xs => xs.length
  | queue _ xs => xs.length
  | hashSet _ ss => ss.length
  | dictionary _ _ ss => ss.length

/-- Whether the elements come in no particular order. -/
def isUnordered : Contents → Bool
  | list .. | queue .. => false
  | hashSet .. | dictionary .. => true

end Contents

/-- The state of an object. Only the contents of a collection ever change. -/
inductive Body
  | boxed (v : Scalar)
  | text (s : String)
  | enumValue (type : Descriptor) (ordinal : Int32)
  | plain
  | animal
  | dog
  | tracked (label : String)
  | dyn (type : TypeHandle) (tag : String) (arguments : List Handle)
  | pair (key value : Handle)
  | collection (c : Contents)
  deriving DecidableEq

namespace Body

def kind : Body → Kind
  | boxed v => .scalar v.kind
  | text _ => .string
  | enumValue .. => .enumValue
  | plain => .plain
  | animal => .animal
  | dog => .dog
  | tracked _ => .tracked
  | dyn .. => .dyn
  | pair .. => .pair
  | collection c => c.kind

/-- The handles that an object holds, each as often as it holds it. -/
def owned : Body → List Handle
  | dyn _ _ hs => hs
  | pair k v => [k, v]
  | collection c => c.owned
  | _ => []

/-- The handles that an object was made with and keeps for its life. -/
def parts : Body → List Handle
  | dyn _ _ hs => hs
  | pair k v => [k, v]
  | _ => []

def label? : Body → Option String
  | tracked l => some l
  | _ => none

end Body

/-- An object with the descriptor of its concrete kind and the number of handles to it. -/
structure Cell where
  type : Descriptor
  refs : Nat
  body : Body

/-- What a handle that is not null points to. -/
inductive Pointee
  | described (d : Descriptor)
  | stored (c : Cell)

def Pointee.kind : Pointee → Kind
  | described _ => .type
  | stored c => c.body.kind

/-- All objects ever made, in order of creation; those destroyed leave an empty place. -/
structure Store where
  metatype : Descriptor
  cells : Array (Option Cell)
  destroyed : Array (Nat × Body)

namespace Store

/-- A store without objects. The descriptor given is the one that describes descriptors. -/
def empty (metatype : Descriptor) : Store := ⟨metatype, #[], #[]⟩

def find? (s : Store) (id : Nat) : Option Cell := s.cells[id]?.join

def pointee? (s : Store) : Handle → Option Pointee
  | .null => none
  | .type d => some (.described d)
  | .object id => (s.find? id).map .stored

def body? (s : Store) : Handle → Option Body
  | .object id => (s.find? id).map Cell.body
  | _ => none

def contents? (s : Store) (h : Handle) : Option Contents :=
  match s.body? h with
  | some (.collection c) => some c
  | _ => none

def refs (s : Store) (id : Nat) : Nat := ((s.find? id).map Cell.refs).getD 0

def put (s : Store) (id : Nat) (c : Cell) : Store :=
  { s with cells := s.cells.setIfInBounds id (some c) }

def attach (s : Store) : Handle → Store
  | .object id =>
    match s.find? id with
    | some c => s.put id { c with refs := c.refs + 1 }
    | none => s
  | _ => s

def attachAll (s : Store) (hs : List Handle) : Store := hs.foldl attach s

/-- Empties the place of an object and records its last state. -/
def destroy (s : Store) (id : Nat) (b : Body) : Store :=
  { s with cells := s.cells.setIfInBounds id none, destroyed := s.destroyed.push (id, b) }

end Store

end CountedObjects
