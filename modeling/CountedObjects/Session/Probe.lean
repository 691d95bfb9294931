import CountedObjects.Session.Run

/-! Questions about single values, asked outside any session. -/
namespace CountedObjects

/-- A box read from text, and whether its own text reads back as an equal value. -/
structure Reading where
  type : String
  text : String
  hash : UInt64
  roundTrips : Bool
  value : Scalar

structure Comparison where
  left : View
  right : View
  equals : Bool
  reverse : Bool
  self : Bool
  sameInstance : Bool
  hash : Bool
  key : Bool

namespace Probe

def read (k : ScalarKind) (text : String) : Except ObjectError Reading := do
  let v := k.wrap (← k.parse text)
  let back :=
    match k.parse v.text with
    | .ok w => (k.wrap w).same v
    | .error _ => false
  return ⟨(Kind.scalar k).fullName, v.text, v.hash, back, v⟩

/-- Runs an action on the state a session starts with. -/
def fresh {α : Type} (a : Action α) : Result α := (a Session.start).1

def box (l : Literal) : Result (View × Answer) := fresh do
  let h ← l.build
  let v ← Action.view h
  let (shape, w) ← Action.hash h
  return (v, .ofHash shape.hasValueHash w)

def compare (a b : Literal) : Result Comparison := fresh do
  let x ← a.build
  let y ← b.build
  let s ← Action.ask Session.store
  let hash := if x.isNull || y.isNull then x.isNull && y.isNull
    else s.hashCode x == s.hashCode y
  return ⟨← Action.view x, ← Action.view y, s.equals x y, s.equals y x, s.equals x x,
    x == y, hash, ElementType.key.same s x y⟩

/-- The descriptor of a type of which nothing is known but its qualified path. -/
def describe (path : String) : Descriptor :=
  let (object, r) := Registry.empty.objectType
  (r.mint (.custom 0) (.ofTypeName path) (some (some object))).1

end Probe

end CountedObjects
