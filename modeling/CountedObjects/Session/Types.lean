import CountedObjects.Session.Answer

/-! Steps on type descriptors and on values of enumerations. -/
namespace CountedObjects

/-- A change to a descriptor that is being drafted. -/
inductive Revision
  | space (s : String)
  | name (s : String)
  | base (type : String)
  | makeAbstract
  | members (ms : List (String × Int32))

inductive TypeStep
  | new (target : String) (id : Nat) (space name : String) (revisions : List Revision)
  | info (type : String)
  | base (type : String)
  | ordinal (type name : String)
  | name (type : String) (n : Int32)
  | subclass (type of : String)
  | assignable (type of : String)
  | compare (type of : String)
  | lookup (type : String)

inductive EnumStep
  | unbox (h : String) (e : Enumeration)
  | member (h : String) (e : Enumeration)
  | ofOrdinal (e : Enumeration) (n : Int32)
  | parts (h : String)

namespace Session

/-- Carries out revisions in order on a draft and the link to its base. -/
def revise (s : Session) (draft : Draft) (base : Option TypeHandle) :
    List Revision → Draft × Option TypeHandle
  | [] => (draft, base)
  | .space x :: rs => s.revise { draft with space := x } base rs
  | .name x :: rs => s.revise { draft with name := x } base rs
  | .base t :: rs => s.revise draft (some (s.type t)) rs
  | .makeAbstract :: rs => s.revise { draft with isAbstract := true } base rs
  | .members ms :: rs => s.revise { draft with members := some ms } base rs

/-- Makes a descriptor outside the registry and gives it a name. -/
def describe (s : Session) (target : String) (id : TypeId) (draft : Draft)
    (base : Option TypeHandle) : Descriptor × Session :=
  let (d, registry) := s.realm.registry.mint id draft base
  (d, { s with
    realm := { s.realm with registry := registry }
    types := Named.set target (some d) s.types })

end Session

namespace Action

def demandType (name : String) : Action Descriptor := do
  ofResult (← ask (·.type name)).demand

def typeStep : TypeStep → Action Answer
  | .new target id space name revisions => do
    let s ← get
    let (draft, base) := s.revise (.plain space name) none revisions
    let (d, s) := s.describe target (.custom id) draft base
    set s
    return .description d
  | .info type => do return .description (← demandType type)
  | .base type => do
    match (← demandType type).base? with
    | none => return .nothing
    | some b => return .type (← ask (·.typeView b))
  | .ordinal type name => do
    let d ← demandType type
    return .optionalNumber ((d.ordinal? name).map Int32.toInt)
  | .name type n => do return .optionalText ((← demandType type).memberName? n)
  | .subclass type of => do
    let d ← demandType type
    return .flag (← ofResult (d.isSubclassOf (← demandType of).id))
  | .assignable type of => do
    let d ← demandType type
    return .flag (← ofResult (d.isAssignableFrom (← demandType of)))
  | .compare type of => do
    let d ← demandType type
    let e ← demandType of
    return .comparison
      { same := d == e
        equals := ← ask (·.store.equals (.type d) (.type e))
        hash := d.id.hash == e.id.hash
        id := d.id == e.id }
  | .lookup type => do
    let d ← demandType type
    match ← ask (·.realm.registry.lookup d.id) with
    | none => return .nothing
    | some e => return .type (← ask (·.typeView (some e)))

/-- The descriptor and ordinal of an object that must be an enum value. -/
def demandEnumValue (h : String) : Action (Descriptor × Int32) := do
  let o ← cast .enumValue (← ask (·.handle h))
  query fun s => EnumValue.demand s o

def enumStep : EnumStep → Action Answer
  | .unbox h e => do
    let o ← ask (·.handle h)
    if o.isNull then throw (.object .nullReference)
    let expected ← enumType e
    let (_, n) ← query fun s => EnumValue.unbox s e expected o
    return .member n (expected.memberText n)
  | .member h e => do
    let (d, n) ← demandEnumValue h
    let (_, n) ← ofObject (EnumValue.member e (← enumType e) d n)
    return .number n.toInt
  | .ofOrdinal e n => do
    match e.ofOrdinal? n with
    | none => return .nothing
    | some m => do return .object (← view (← make (.enumValue (← enumType e) m.2)))
  | .parts h => do
    let (d, n) ← demandEnumValue h
    return .parts n (d.memberName? n)

end Action

end CountedObjects
