import CountedObjects.Activator
import CountedObjects.View

/-! The state of a session: its objects, the names that refer to them, and what the current step
holds. Every operation counts the handles it stores and releases those it drops. -/
namespace CountedObjects

/-- The elements that an enumerator has still to give. -/
structure Enumerator where
  items : List Handle
  isUnordered : Bool

structure Session where
  realm : Realm
  types : List (String × TypeHandle)
  handles : List (String × Handle)
  enumerators : List (String × Enumerator)
  activators : List (String × Activator Construction)
  held : List Handle

namespace Named

variable {α : Type}

/-- Gives a name a value in place of the one it has. -/
def set (name : String) (a : α) : List (String × α) → List (String × α)
  | [] => [(name, a)]
  | (n, b) :: xs => if n = name then (n, a) :: xs else (n, b) :: set name a xs

def erase (name : String) (xs : List (String × α)) : List (String × α) :=
  xs.eraseP fun p => p.1 == name

end Named

namespace Session

def store (s : Session) : Store := s.realm.store

def mapRealm (s : Session) (f : Realm → Realm) : Session := { s with realm := f s.realm }

/-- An unknown name reads as null. -/
def handle (s : Session) (name : String) : Handle := (s.handles.lookup name).getD .null

def type (s : Session) (name : String) : TypeHandle := (s.types.lookup name).getD none

/-- The handles that names, enumerators and the current step hold. -/
def roots (s : Session) : List Handle :=
  s.handles.map (·.2) ++ s.enumerators.flatMap (·.2.items) ++ s.held

/-- Lets the step hold a handle that is already counted for it. -/
def hold (s : Session) (h : Handle) : Session := { s with held := h :: s.held }

def release (s : Session) (hs : List Handle) : Session := s.mapRealm (·.releaseAll hs)

/-- Points a name at an object. The new object is attached before the old one is released. -/
def setHandle (s : Session) (name : String) (h : Handle) : Session :=
  let old := s.handle name
  let s := s.mapRealm fun r => (r.share h).2
  { s with handles := Named.set name h s.handles }.release [old]

/-- Points a name at nothing. An unknown name stays unknown. -/
def clearHandle (s : Session) (name : String) : Session :=
  if (s.handles.lookup name).isSome then s.setHandle name .null else s

def dropHandle (s : Session) (name : String) : Session :=
  let old := s.handle name
  { s with handles := Named.erase name s.handles }.release [old]

def enumerator (s : Session) (name : String) : Enumerator :=
  (s.enumerators.lookup name).getD ⟨[], false⟩

/-- Keeps an enumerator whose elements are already counted for it. -/
def setEnumerator (s : Session) (name : String) (e : Enumerator) : Session :=
  let old := s.enumerator name
  { s with enumerators := Named.set name e s.enumerators }.release old.items

def dropEnumerator (s : Session) (name : String) : Session :=
  let old := s.enumerator name
  { s with enumerators := Named.erase name s.enumerators }.release old.items

/-- Opens an enumerator on a collection; on any other object there is none. -/
def openEnumerator? (s : Session) (name : String) (h : Handle) : Option Session :=
  (s.store.contents? h).map fun c =>
    let (hs, r) := s.realm.enumerate c
    { s with realm := r }.setEnumerator name ⟨hs, c.isUnordered⟩

/-- Moves the next element of an enumerator into the step. -/
def takeNext? (s : Session) (name : String) : Option (Handle × Session) :=
  let e := s.enumerator name
  match e.items with
  | [] => none
  | h :: hs =>
    some (h, { s with enumerators := Named.set name { e with items := hs } s.enumerators }.hold h)

/-- Moves all elements that an enumerator still has into the step and drops it. -/
def takeRest? (s : Session) (name : String) : Option (Enumerator × Session) :=
  (s.enumerators.lookup name).map fun e =>
    (e, { s with
      enumerators := Named.erase name s.enumerators
      held := e.items ++ s.held })

/-- Ends a step: what it alone held is released. -/
def endStep (s : Session) : Session := { s with held := [] }.release s.held

/-- Ends the session: every name and enumerator is dropped. -/
def close (s : Session) : Session :=
  { s with handles := [], enumerators := [], held := [] }.release s.roots

/-- The labels of the tracked objects destroyed since the log had `start` entries, sorted. -/
def labelsSince (s : Session) (start : Nat) : List String :=
  ((s.store.destroyed.toList.drop start).filterMap fun d => d.2.label?).mergeSort (· ≤ ·)

end Session

/-- A step of a session: it may fail and leaves a state in either case. -/
abbrev Action (α : Type) := ExceptT Fault (StateM Session) α

namespace Action

def ofResult {α : Type} : Result α → Action α
  | .ok a => pure a
  | .error e => throw e

def ofObject {α : Type} (r : Except ObjectError α) : Action α := ofResult (Result.ofObject r)

/-- A question about the state. -/
def ask {α : Type} (f : Session → α) : Action α := return f (← get)

/-- A question about the objects, which may fail. -/
def query {α : Type} (f : Store → Result α) : Action α := do ofResult (f (← get).store)

/-- Converts objects, all from one kind unless every kind will do. -/
def convert {α : Type} (expected : Option Kind) (f : Store → Result α) : Action α := do
  let s ← get
  let result := f s.store
  set (s.mapRealm (·.converting expected result))
  ofResult result

/-- Converts an object to an element. -/
def toElement (t : ElementType) (h : Handle) : Action t.Value :=
  convert t.required? fun s => t.ofObject s h

/-- Converts in order and stops at the first failure. -/
def toElements (t : ElementType) (hs : List Handle) : Action (List t.Value) :=
  convert t.required? fun s => t.ofObjects s hs

/-- Casts an object, or aborts if it is of another kind. -/
def cast (k : Kind) (h : Handle) : Action Handle := convert (some k) (·.cast k h)

def change (f : Session → Session) : Action Unit := modify f

/-- Runs an operation that gives out a handle, and holds the handle until the step ends. -/
def obtain (f : Realm → Handle × Realm) : Action Handle := do
  let s ← get
  let (h, r) := f s.realm
  set ({ s with realm := r }.hold h)
  return h

/-- Like `obtain`, for an operation that may fail. -/
def attempt (f : Realm → Result Handle × Realm) : Action Handle := do
  let s ← get
  match f s.realm with
  | (.ok h, r) => do
    set ({ s with realm := r }.hold h)
    return h
  | (.error e, r) => do
    set { s with realm := r }
    throw e

def make (b : Body) : Action Handle := obtain (·.make b)

def share (h : Handle) : Action Handle := obtain (·.share h)

def replace (id : Nat) (c : Contents) : Action Unit := change fun s => s.mapRealm (·.replace id c)

def toObject (t : ElementType) (v : t.Value) : Action Handle := obtain fun r => r.toObject t v

def enumType (e : Enumeration) : Action Descriptor := do
  let s ← get
  let (d, registry) := s.realm.registry.enumType e
  set { s with realm := { s.realm with registry := registry } }
  return d

/-- Holds the elements of a collection, or answers that the object is none. -/
def enumerate (h : Handle) : Action (Option (List Handle)) := do
  let s ← get
  match s.realm.enumerate? h with
  | none => return none
  | some (hs, r) => do
    set { s with realm := r, held := hs ++ s.held }
    return some hs

/-- Stores a result under an optional name. -/
def storeAs (name : Option String) (h : Handle) : Action Unit :=
  match name with
  | none => pure ()
  | some n => change (·.setHandle n h)

def view (h : Handle) : Action View := query (·.view h)

def views (hs : List Handle) : Action (List View) := query (·.views hs)

/-- Shows a result and stores it under an optional name. One that cannot be shown is not stored. -/
def deliver (name : Option String) (h : Handle) : Action View := do
  let v ← view h
  storeAs name h
  return v

end Action

end CountedObjects
