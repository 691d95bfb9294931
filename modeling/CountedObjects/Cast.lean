import CountedObjects.Shape

/-! Tests of an object's kind, checked casts and the recovery of boxed values. -/
namespace CountedObjects.Store

def isKind (s : Store) (k : Kind) (h : Handle) : Bool :=
  match s.pointee? h with
  | some p => p.kind == k
  | none => false

/-- What a handle points to, seen as an object of the given kind. -/
def downcast? (s : Store) (k : Kind) (h : Handle) : Option Pointee :=
  (s.pointee? h).filter fun p => p.kind == k

/-- The error of an object that was expected to be something else. -/
def mismatch {α : Type} (s : Store) (expected : String) (h : Handle) : Result α := do
  throw (.object (.invalidCast expected (← s.typeName h)))

/-- A null handle can be cast to any kind. -/
def tryCast (s : Store) (k : Kind) (h : Handle) : Result Handle :=
  if h.isNull || s.isKind k h then .ok h else s.mismatch k.fullName h

/-- A cast that the caller holds to be valid, so that a failure aborts. -/
def cast (s : Store) (k : Kind) (h : Handle) : Result Handle := (s.tryCast k h).insist

/-- Whether the reported type of the object is the given type or derives from it. -/
def isInstanceOf (s : Store) (h : Handle) (t : TypeHandle) : Result Bool := do
  if h.isNull then return false
  let d ← t.demand
  d.isAssignableFrom (← (← s.reportedType h).demand)

def unbox (s : Store) (k : ScalarKind) (h : Handle) : Result k.Value :=
  if h.isNull then .error (.object .nullReference)
  else
    match s.body? h with
    | some (.boxed v) =>
      match k.unwrap? v with
      | some x => .ok x
      | none => s.mismatch (Kind.scalar k).fullName h
    | _ => s.mismatch (Kind.scalar k).fullName h

def unboxText (s : Store) (h : Handle) : Result String :=
  if h.isNull then .error (.object .nullReference)
  else
    match s.body? h with
    | some (.text t) => .ok t
    | _ => s.mismatch Kind.string.fullName h

/-- The integer that an object counts as in an order by number. Null and objects that are not
scalars count as zero, but an object must have a type. -/
def number (s : Store) (h : Handle) : Result Int :=
  match s.body? h with
  | some (.boxed v) => .ok v.number
  | _ => if h.isNull then .ok 0 else (s.typeName h).map fun _ => 0

end CountedObjects.Store
