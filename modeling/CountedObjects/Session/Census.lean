import CountedObjects.Session.State

/-! References to descriptors, which the store does not count, and the count of handles to any
object. -/
namespace CountedObjects

namespace Cell

/-- The descriptors that an object refers to by itself. -/
def descriptors (c : Cell) : List Descriptor :=
  match c.body with
  | .enumValue d _ => [d]
  | .dyn (some d) .. => [d]
  | _ => []

end Cell

namespace Handle

def descriptor? : Handle → TypeHandle
  | type d => some d
  | _ => none

end Handle

namespace Constructor

/-- A body that makes a fresh object needs no descriptor; every other one keeps that of the type
it was registered for. -/
def descriptors (c : Constructor Construction) : List Descriptor :=
  let captured :=
    match c.body with
    | .fresh _ => []
    | _ => [c.declaring]
  c.declaring :: c.parameters.filterMap Parameter.type ++ captured

end Constructor

namespace Activator

def descriptors (a : Activator Construction) : List Descriptor :=
  a.fullNames.map (·.2) ++ a.shortNames.map (·.2) ++ a.constructors.flatMap Constructor.descriptors

end Activator

namespace Session

def cells (s : Session) : List Cell := s.store.cells.toList.filterMap id

/-- The descriptors that are referred to other than as the base of another one. -/
def descriptors (s : Session) : List Descriptor :=
  s.realm.registry.bound.map (·.2) ++ s.types.filterMap (·.2)
    ++ s.roots.filterMap Handle.descriptor?
    ++ s.cells.flatMap (fun c => c.descriptors ++ c.body.owned.filterMap Handle.descriptor?)
    ++ s.activators.flatMap (·.2.descriptors)

/-- The descriptors that are referred to, be it as the base of one that is in use. -/
def inUse (s : Session) : List Descriptor :=
  (s.descriptors ++ s.descriptors.flatMap Descriptor.ancestors).eraseDups

/-- Each descriptor in use is one more reference to its base. -/
def descriptorRefs (s : Session) (d : Descriptor) : Nat :=
  s.descriptors.count d + s.inUse.countP fun e => e.base? == some (some d)

/-- The number of handles to an object. -/
def refs (s : Session) : Handle → Nat
  | .null => 0
  | .type d => s.descriptorRefs d
  | .object id => s.store.refs id

end Session

end CountedObjects
