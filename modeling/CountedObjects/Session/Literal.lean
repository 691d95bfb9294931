import CountedObjects.Session.State

/-! Written object values and the objects they build. -/
namespace CountedObjects

inductive Literal
  | null
  | scalar (v : Scalar)
  | text (s : String)
  | plain
  | tracked (label : String)
  | animal
  | dog
  | handle (name : String)
  | type (name : String)
  | member (e : Enumeration) (name : String)
  | ordinal (type : String) (n : Int32)
  | parsed (type text : String)
  | assembled (type tag : String) (arguments : List Literal)
  | pair (key value : Literal)
  | nested (depth : Nat) (v : Literal)
  | present (t : ElementType) (v : Literal)
  | missing (t : ElementType)

namespace Action

/-- Wraps an object in pairs whose values are null. -/
def nest : Nat → Handle → Action Handle
  | 0, h => return h
  | d + 1, h => do nest d (← make (.pair h .null))

/-- An object of a member of an enumeration. -/
def boxMember (e : Enumeration) (m : String × Int32) : Action Handle := do
  make (.enumValue (← enumType e) m.2)

end Action

open CountedObjects.Action in
mutual

/-- Builds from the inside out and from left to right; the step holds everything it built. -/
def Literal.build : Literal → Action Handle
  | .null => return .null
  | .scalar v => make (.boxed v)
  | .text s => make (.text s)
  | .plain => make .plain
  | .tracked l => make (.tracked l)
  | .animal => make .animal
  | .dog => make .dog
  | .handle n => do share (← ask (·.handle n))
  | .type n => do share (.ofType (← ask (·.type n)))
  | .member e n =>
    match e.member? n with
    | none => return .null
    | some m => boxMember e m
  | .ordinal t n => do make (← ofObject (EnumValue.ofOrdinal (← ask (·.type t)) n))
  | .parsed t x => do make (← ofObject (EnumValue.parse (← ask (·.type t)) x))
  | .assembled t tag ls => do
    let hs ← Literal.buildAll ls
    make (.dyn (← ask (·.type t)) tag hs)
  | .pair k v => do
    let key ← k.build
    let value ← v.build
    make (.pair key value)
  | .nested d v => do nest d (← v.build)
  | .present t v => do
    let h ← v.build
    toObject (.option t) (some (← toElement t h))
  | .missing t => toObject (.option t) none

def Literal.buildAll : List Literal → Action (List Handle)
  | [] => return []
  | l :: ls => do
    let h ← l.build
    return h :: (← Literal.buildAll ls)

end

/-- Builds an object and converts it to an element. -/
def Literal.element (t : ElementType) (l : Literal) : Action t.Value := do
  let h ← l.build
  Action.toElement t h

/-- Builds all objects before any is converted. -/
def Literal.elements (t : ElementType) (ls : List Literal) : Action (List t.Value) := do
  let hs ← Literal.buildAll ls
  Action.toElements t hs

end CountedObjects
