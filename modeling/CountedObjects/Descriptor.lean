import CountedObjects.Kind
import CountedObjects.TypeName

/-! Runtime type descriptors: names, enum members and the chain of bases. -/
namespace CountedObjects

/-- What is said of a type apart from its identity and its base. -/
structure Draft where
  space : String
  name : String
  isAbstract : Bool
  members : Option (List (String × Int32))
  deriving DecidableEq

namespace Draft

def plain (space name : String) : Draft := ⟨space, name, false, none⟩

def fullName (d : Draft) : String :=
  if d.space.isEmpty then d.name else d.space ++ "." ++ d.name

def ofTypeName (full : String) : Draft :=
  let (space, name) := TypeName.split full.toList
  plain (String.ofList space) (String.ofList name)

end Draft

/-- A descriptor never changes, so it holds its base as a value; the serial number tells apart
descriptors that were made apart. The base of a `severed` one is a null handle. -/
inductive Descriptor
  | root (serial : Nat) (id : TypeId) (draft : Draft)
  | severed (serial : Nat) (id : TypeId) (draft : Draft)
  | derived (serial : Nat) (id : TypeId) (draft : Draft) (base : Descriptor)
  deriving DecidableEq

/-- A handle to a descriptor; `none` is the null handle. -/
abbrev TypeHandle := Option Descriptor

/-- A descriptor behind a handle that is used without asking whether it is null. -/
def TypeHandle.demand : TypeHandle → Result Descriptor
  | some d => .ok d
  | none => .error (.abort .nullReference)

/-- A descriptor behind a handle that may be null. -/
def TypeHandle.get : TypeHandle → Except ObjectError Descriptor
  | some d => .ok d
  | none => .error .nullReference

namespace Descriptor

def make (serial : Nat) (id : TypeId) (draft : Draft) : Option TypeHandle → Descriptor
  | none => root serial id draft
  | some none => severed serial id draft
  | some (some b) => derived serial id draft b

def serial : Descriptor → Nat
  | root s .. | severed s .. | derived s .. => s

def id : Descriptor → TypeId
  | root _ i _ | severed _ i _ | derived _ i .. => i

def draft : Descriptor → Draft
  | root _ _ d | severed _ _ d | derived _ _ d _ => d

/-- The link to the base, if there is one; the handle in it may be null. -/
def base? : Descriptor → Option TypeHandle
  | root .. => none
  | severed .. => some none
  | derived _ _ _ b => some (some b)

def fullName (d : Descriptor) : String := d.draft.fullName

def isAbstract (d : Descriptor) : Bool := d.draft.isAbstract

def isEnum (d : Descriptor) : Bool := d.draft.members.isSome

def members (d : Descriptor) : List (String × Int32) := d.draft.members.getD []

/-- The ordinal of the first member of that name. -/
def ordinal? (d : Descriptor) (name : String) : Option Int32 :=
  (d.members.find? (·.1 == name)).map (·.2)

/-- The name of the first member with that ordinal. -/
def memberName? (d : Descriptor) (ordinal : Int32) : Option String :=
  (d.members.find? (·.2 == ordinal)).map (·.1)

/-- A member's name, or the ordinal in decimal when no member has it. -/
def memberText (d : Descriptor) (ordinal : Int32) : String :=
  (d.memberName? ordinal).getD (Text.numeralText ordinal.toInt)

/-- The descriptors that the base links reach, nearest first. -/
def ancestors : Descriptor → List Descriptor
  | root .. | severed .. => []
  | derived _ _ _ b => b :: b.ancestors

/-- Whether a base link, followed as often as needed, leads to the given type. A null link that
is reached before that aborts. -/
def isSubclassOf : Descriptor → TypeId → Result Bool
  | root .., _ => .ok false
  | severed .., _ => .error (.abort .nullReference)
  | derived _ _ _ b, i => if b.id = i then .ok true else b.isSubclassOf i

/-- Whether a value described by `other` can stand in for this type. -/
def isAssignableFrom (d other : Descriptor) : Result Bool :=
  if d.id = other.id then .ok true else other.isSubclassOf d.id

end Descriptor

end CountedObjects
