import CountedObjects.Session.State

/-! Answers to the steps of a session. -/
namespace CountedObjects

/-- A type: its full name, unless the handle is null, and the session's names for the handle. -/
structure TypeView where
  fullName : Option String
  names : List String

structure ParameterView where
  name : String
  type : TypeView

structure ConstructorView where
  declaring : TypeView
  parameters : List ParameterView
  summary : String

/-- How two descriptors compare. -/
structure TypeComparison where
  same : Bool
  equals : Bool
  hash : Bool
  id : Bool

inductive Answer
  | nothing
  | flag (b : Bool)
  | flags (bs : List Bool)
  | number (n : Int)
  | text (s : String)
  | hash (w : UInt64)
  | identityHash
  | object (v : View)
  | optional (v : Option View)
  | objects (vs : List View)
  | size (count : Nat)
  | type (t : TypeView)
  | description (d : Descriptor)
  | comparison (c : TypeComparison)
  | member (ordinal : Int32) (text : String)
  | parts (ordinal : Int32) (name : Option String)
  | options (o : ActivatorOptions)
  | constructors (cs : List ConstructorView)

namespace Answer

def optionalNumber : Option Int → Answer
  | some n => number n
  | none => nothing

def optionalText : Option String → Answer
  | some s => text s
  | none => nothing

/-- A hash is shown only where it depends on values alone. -/
def ofHash (hasValueHash : Bool) (w : UInt64) : Answer :=
  if hasValueHash then hash w else identityHash

end Answer

namespace Session

/-- The names, sorted, that refer to one and the same descriptor. -/
def namesOf (s : Session) (t : TypeHandle) : List String :=
  ((s.types.filter fun p => p.2 == t).map (·.1)).mergeSort (· ≤ ·)

def typeView (s : Session) (t : TypeHandle) : TypeView := ⟨t.map Descriptor.fullName, s.namesOf t⟩

end Session

end CountedObjects
