import CountedObjects.Element
import CountedObjects.EnumValue

/-! A store with the registry of its types: making objects, turning elements into objects and
listing the elements of a collection. Each handle given out is counted for the caller. -/
namespace CountedObjects

structure Realm where
  registry : Registry
  store : Store

namespace Realm

/-- Requests the descriptor of a kind. -/
def describe (r : Realm) (k : Kind) : Realm := { r with registry := (r.registry.typeOf k).2 }

/-- What a conversion from a kind leaves behind. To name that kind in an error takes its
descriptor, which is built if this is the first request. -/
def converting {α : Type} (r : Realm) (expected : Option Kind) : Result α → Realm
  | .ok _ => r
  | .error e => if e.namesExpected then expected.elim r r.describe else r

/-- Makes an object of the kind its state has, whose descriptor is requested with it. -/
def make (r : Realm) (b : Body) : Handle × Realm :=
  let (d, registry) := r.registry.typeOf b.kind
  let (id, store) := r.store.alloc d b
  (.object id, ⟨registry, store⟩)

def share (r : Realm) (h : Handle) : Handle × Realm :=
  (h, { r with store := r.store.attach h })

def shareAll (r : Realm) (hs : List Handle) : Realm :=
  { r with store := r.store.attachAll hs }

def releaseAll (r : Realm) (hs : List Handle) : Realm :=
  { r with store := r.store.releaseAll hs }

def replace (r : Realm) (id : Nat) (c : Contents) : Realm :=
  { r with store := r.store.replace id c }

/-- Makes a pair that takes over both handles from the caller. -/
def makePair (r : Realm) (key value : Handle) : Handle × Realm :=
  let (p, r) := r.make (.pair key value)
  (p, r.releaseAll [key, value])

/-- A scalar or a text is boxed anew; an element that is a handle is shared. -/
def toObject (r : Realm) : (t : ElementType) → t.Value → Handle × Realm
  | .scalar k, v => r.make (.boxed (k.wrap v))
  | .string, v => r.make (.text v)
  | .object, h => r.share h
  | .key, h => r.share h
  | .pointer _, h => r.share h
  | .option _, none => (.null, r)
  | .option t, some v => r.toObject t v

def toObjects (r : Realm) (t : ElementType) : List t.Value → List Handle × Realm
  | [] => ([], r)
  | v :: vs =>
    let (h, r) := r.toObject t v
    let (hs, r) := r.toObjects t vs
    (h :: hs, r)

/-- One pair for each entry of a dictionary. -/
def toPairs (r : Realm) (k v : ElementType) : List (Slot k.Value v.Value) → List Handle × Realm
  | [] => ([], r)
  | s :: ss =>
    let (key, r) := r.toObject k s.key
    let (value, r) := r.toObject v s.value
    let (p, r) := r.makePair key value
    let (ps, r) := r.toPairs k v ss
    (p :: ps, r)

/-- The elements as objects. -/
def enumerate (r : Realm) : Contents → List Handle × Realm
  | .list t xs => r.toObjects t xs
  | .queue t xs => r.toObjects t xs
  | .hashSet t ss => r.toObjects t (ss.map Slot.key)
  | .dictionary k v ss => r.toPairs k v ss

/-- The elements of a collection as they are now, or nothing for another object. -/
def enumerate? (r : Realm) (h : Handle) : Option (List Handle × Realm) :=
  (r.store.contents? h).map r.enumerate

end Realm

end CountedObjects
