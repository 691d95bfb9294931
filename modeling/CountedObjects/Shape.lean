import CountedObjects.Store.Release

/-! What of an object hashing and text depend on: its value if it has one, else which object it is.
Collections count as themselves, so a shape never looks at their elements. -/
namespace CountedObjects

inductive Shape
  | null
  | type (d : Descriptor)
  | boxed (v : Scalar)
  | text (s : String)
  | enumValue (d : Descriptor) (ordinal : Int32)
  | pair (key value : Shape)
  | entity (id : Nat) (type : TypeHandle)
  deriving DecidableEq

namespace Handle

/-- One more than the number of the object, so that what an object is made of ranks lower. -/
def rank : Handle → Nat
  | null => 0
  | type _ => 0
  | object id => id + 1

/-- Where the object lies. No two lie at one place, and none where the null handle points. -/
def address : Handle → UInt64
  | null => 0
  | type d => 0x5555_1000_0000 + 32 * UInt64.ofNat d.serial
  | object id => 0x5555_9000_0000 + 32 * UInt64.ofNat id

def addressHash (h : Handle) : UInt64 := Hashing.word h.address

end Handle

namespace Shape

def hash : Shape → UInt64
  | null => 0
  | type d => d.id.hash
  | boxed v => v.hash
  | text s => Hashing.text s
  | enumValue _ n => Hashing.word n.toUInt32.toUInt64
  | pair k v => Hashing.rotateLeft k.hash 5 ^^^ v.hash
  | entity i _ => (Handle.object i).addressHash

/-- Whether the hash depends on values alone. -/
def hasValueHash : Shape → Bool
  | null | boxed _ | text _ | enumValue .. => true
  | pair k v => k.hasValueHash && v.hasValueHash
  | type _ | entity .. => false

/-- The text of an object. One that has no text of its own shows the name of its type. -/
def display : Shape → Result String
  | null => .ok ""
  | type d => .ok d.fullName
  | boxed v => .ok v.text
  | text s => .ok s
  | enumValue d n => .ok (d.memberText n)
  | pair k v => do return "[" ++ (← k.display) ++ ", " ++ (← v.display) ++ "]"
  | entity _ t => do return (← t.demand).fullName

end Shape

namespace Cell

/-- The descriptor an object reports, which need not be the one of its kind. -/
def reported (c : Cell) : TypeHandle :=
  match c.body with
  | .enumValue d _ => some d
  | .dyn t .. => t
  | _ => some c.type

end Cell

namespace Store

/-- Parts of a pair are older than the pair. -/
def shape (s : Store) : Handle → Shape
  | .null => .null
  | .type d => .type d
  | .object id =>
    match s.find? id with
    | none => .null
    | some c =>
      match c.body with
      | .boxed v => .boxed v
      | .text t => .text t
      | .enumValue d n => .enumValue d n
      | .pair k v =>
        .pair (if k.rank ≤ id then s.shape k else .null) (if v.rank ≤ id then s.shape v else .null)
      | _ => .entity id c.reported
termination_by h => h.rank
decreasing_by all_goals simp only [Handle.rank] at *; omega

/-- The hash of an object. Zero stands in for that of a null handle. -/
def hashCode (s : Store) (h : Handle) : UInt64 := (s.shape h).hash

/-- The hash of a handle as a key, which a null handle has too. -/
def keyHash (s : Store) (h : Handle) : UInt64 := Hashing.word (s.hashCode h)

/-- Using a handle that points to nothing as an object aborts. -/
def demand (s : Store) (h : Handle) : Result Pointee :=
  match s.pointee? h with
  | some p => .ok p
  | none => .error (.abort .nullReference)

/-- The descriptor an object reports; the handle to it may be null. -/
def reportedType (s : Store) (h : Handle) : Result TypeHandle :=
  match s.pointee? h with
  | some (.described _) => .ok (some s.metatype)
  | some (.stored c) => .ok c.reported
  | none => .error (.abort .nullReference)

def typeName (s : Store) (h : Handle) : Result String := do
  return (← (← s.reportedType h).demand).fullName

def display (s : Store) (h : Handle) : Result String := (s.shape h).display

end Store

end CountedObjects
