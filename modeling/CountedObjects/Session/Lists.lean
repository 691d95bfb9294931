import CountedObjects.Collection.Ordering
import CountedObjects.Session.Answer
import CountedObjects.Session.Literal

/-! Steps on lists and queues. -/
namespace CountedObjects

/-- Where the elements of a bulk operation come from. -/
inductive Source
  | literals (vs : List Literal)
  | collection (h : String)

inductive ListStep
  | new (h : String) (t : ElementType) (vs : List Literal)
  | add (h : String) (v : Literal)
  | addObject (h : String) (v : Literal)
  | addRange (h : String) (source : Source)
  | get (h : String) (i : Nat) (target : Option String)
  | removeAt (h : String) (i : Nat) (target : Option String)
  | set (h : String) (i : Nat) (v : Literal)
  | insert (h : String) (i : Nat) (v : Literal)
  | remove (h : String) (v : Literal)
  | contains (h : String) (v : Literal)
  | indexOf (h : String) (v : Literal)
  | clear (h : String)
  | count (h : String)
  | toVec (h : String)
  | sort (h : String) (order : SortBy)

inductive QueueStep
  | new (h : String) (t : ElementType)
  | enqueue (h : String) (v : Literal)
  | dequeue (h : String) (target : Option String)
  | peek (h : String) (target : Option String)
  | tryDequeue (h : String) (target : Option String)
  | count (h : String)
  | clear (h : String)

/-- A list or queue that a step works on. A null handle opens, with no object behind it, and is
refused only when it is used. -/
structure OpenSequence where
  id : Option Nat
  element : ElementType
  items : List element.Value

namespace Action

/-- The object that an opened collection is, which a null handle is not. -/
def demandId : Option Nat → Action Nat
  | some id => return id
  | none => throw (.abort .nullReference)

def openList (h : String) : Action OpenSequence := do
  let o ← ask (·.handle h)
  match o, ← ask (·.store.contents? o) with
  | .object id, some (.list t xs) => return ⟨some id, t, xs⟩
  | _, _ => do
    let _ ← cast (.list .object) o
    return ⟨none, .object, []⟩

def openQueue (h : String) : Action OpenSequence := do
  let o ← ask (·.handle h)
  match o, ← ask (·.store.contents? o) with
  | .object id, some (.queue t xs) => return ⟨some id, t, xs⟩
  | _, _ => do
    let _ ← cast (.queue .object) o
    return ⟨none, .object, []⟩

/-- All elements are built or listed before any is converted. An object that is no collection
has no elements. -/
def elementsOf (t : ElementType) : Source → Action (List t.Value)
  | .literals vs => Literal.elements t vs
  | .collection h => do
    let o ← ask (·.handle h)
    let hs := (← enumerate o).getD []
    toElements t hs

def showElements (t : ElementType) (xs : List t.Value) : Action (List View) := do
  let hs ← xs.mapM (toObject t)
  views hs

/-- An object error of a collection's own conversion is reported as the collection's error. -/
def asCollectionError {α : Type} (r : Result α) : Result α :=
  match r with
  | .error (.object e) => .error (.collection (.object e))
  | r => r

def listStep : ListStep → Action Answer
  | .new h t vs => do
    let xs ← Literal.elements t vs
    let l ← make (.collection (.list t xs))
    change (·.setHandle h l)
    return .number xs.length
  | .add h v => do
    let l ← openList h
    let x ← v.element l.element
    replace (← demandId l.id) (.list l.element (l.items ++ [x]))
    return .nothing
  | .addObject h v => do
    let l ← openList h
    let o ← v.build
    let id ← demandId l.id
    let x ← convert l.element.required? fun s => asCollectionError (l.element.ofObject s o)
    replace id (.list l.element (l.items ++ [x]))
    return .nothing
  | .addRange h source => do
    let l ← openList h
    let xs ← elementsOf l.element source
    replace (← demandId l.id) (.list l.element (l.items ++ xs))
    return .number (l.items ++ xs).length
  | .get h i target => do
    let l ← openList h
    let _ ← demandId l.id
    let x ← ofResult (Sequence.get l.items i)
    return .object (← deliver target (← toObject l.element x))
  | .removeAt h i target => do
    let l ← openList h
    let id ← demandId l.id
    let (x, xs) ← ofResult (Sequence.removeAt l.items i)
    let o ← toObject l.element x
    replace id (.list l.element xs)
    return .object (← deliver target o)
  | .set h i v => do
    let l ← openList h
    let x ← v.element l.element
    let id ← demandId l.id
    replace id (.list l.element (← ofResult (Sequence.set l.items i x)))
    return .nothing
  | .insert h i v => do
    let l ← openList h
    let x ← v.element l.element
    let id ← demandId l.id
    replace id (.list l.element (← ofResult (Sequence.insert l.items i x)))
    return .nothing
  | .remove h v => do
    let l ← openList h
    let x ← v.element l.element
    let id ← demandId l.id
    match Sequence.remove? (l.element.same (← get).store) x l.items with
    | none => return .flag false
    | some xs => do
      replace id (.list l.element xs)
      return .flag true
  | .contains h v => do
    let l ← openList h
    let x ← v.element l.element
    let _ ← demandId l.id
    return .flag (Sequence.contains (l.element.same (← get).store) x l.items)
  | .indexOf h v => do
    let l ← openList h
    let x ← v.element l.element
    let _ ← demandId l.id
    let i := Sequence.indexOf? (l.element.same (← get).store) x l.items
    return .optionalNumber (i.map Int.ofNat)
  | .clear h => do
    let l ← openList h
    replace (← demandId l.id) (.list l.element [])
    return .nothing
  | .count h => do
    let l ← openList h
    let _ ← demandId l.id
    return .size l.items.length
  | .toVec h => do
    let l ← openList h
    let _ ← demandId l.id
    return .objects (← showElements l.element l.items)
  | .sort h order => do
    let l ← openList h
    let id ← demandId l.id
    let (xs, r) := order.sort (← get).store l.element l.items
    replace id (.list l.element xs)
    ofResult r
    return .objects (← showElements l.element xs)

def queueStep : QueueStep → Action Answer
  | .new h t => do
    let q ← make (.collection (.queue t []))
    change (·.setHandle h q)
    return .nothing
  | .enqueue h v => do
    let q ← openQueue h
    let x ← v.element q.element
    replace (← demandId q.id) (.queue q.element (q.items ++ [x]))
    return .nothing
  | .dequeue h target => do
    let q ← openQueue h
    let id ← demandId q.id
    let (x, xs) ← ofResult (Sequence.dequeue q.items)
    let o ← toObject q.element x
    replace id (.queue q.element xs)
    return .object (← deliver target o)
  | .peek h target => do
    let q ← openQueue h
    let _ ← demandId q.id
    let x ← ofResult (Sequence.peek q.items)
    return .object (← deliver target (← toObject q.element x))
  | .tryDequeue h target => do
    let q ← openQueue h
    let id ← demandId q.id
    match q.items with
    | [] => return .optional none
    | x :: xs => do
      let o ← toObject q.element x
      replace id (.queue q.element xs)
      return .optional (some (← deliver target o))
  | .count h => do
    let q ← openQueue h
    let _ ← demandId q.id
    return .size q.items.length
  | .clear h => do
    let q ← openQueue h
    replace (← demandId q.id) (.queue q.element [])
    return .nothing

end Action

end CountedObjects
