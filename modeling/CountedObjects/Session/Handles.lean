import CountedObjects.Session.Answer
import CountedObjects.Session.Census
import CountedObjects.Session.Literal

/-! Steps on handles, on the objects behind them and on enumerators. -/
namespace CountedObjects

inductive HandleStep
  | new (h : String) (v : Literal)
  | copy (h source : String)
  | assign (h source : String)
  | take (h source : String)
  | reset (h : String)
  | drop (h : String)
  | reclaim (h : String)
  | refs (h : String)
  | show (h : String)
  | dump (h : String)
  | isNull (h : String)
  | tryGet (h : String)
  | display (h : String)
  | text (h : String)
  | debug (h : String)
  | hash (h : String)
  | keyHash (h : String)
  | type (h : String)
  | sameHandle (a b : String)
  | equals (a b : String)
  | equalsMethod (a b : String)
  | hashEquals (a b : String)
  | keyEquals (a b : String)
  | isKind (h : String) (k : Kind)
  | downcast (h : String) (k : Kind)
  | tryCast (h : String) (k : Kind) (target : Option String)
  | cast (h : String) (k : Kind) (target : Option String)
  | instanceOf (h type : String)
  | unbox (h : String) (k : ScalarKind)
  | fromObject (h : String) (t : ElementType) (target : Option String)
  | fromOption (h : String) (t : ElementType)
  | parts (h : String) (key value : Option String)
  | enumerate (h : String)
  | count (h : String)
  | openEnumerator (h e : String)
  | snapshot (e : String) (vs : List Literal)
  | next (e : String) (target : Option String)
  | rest (e : String)

namespace Action

/-- Elements of a collection without an order are shown sorted. -/
def listed (isUnordered : Bool) (hs : List Handle) : Action (List View) := do
  let vs ← views hs
  return if isUnordered then View.sort vs else vs

def isUnordered (h : Handle) : Action Bool := do
  return ((← get).store.contents? h).any Contents.isUnordered

/-- Shows the elements of collections within collections down to a depth. -/
def dump : Nat → Handle → Action View
  | depth, h => do
    match ← enumerate h with
    | none => view h
    | some hs => do
      let type ← query (·.typeName h)
      let text ← query (·.display h)
      match depth with
      | 0 => return .truncated type text
      | depth + 1 => do
        let vs ← hs.mapM (dump depth)
        return .collection type text (if ← isUnordered h then View.sort vs else vs)

def hash (h : Handle) : Action (Shape × UInt64) := do
  let _ ← query (·.demand h)
  return (← ask (·.store.shape h), ← ask (·.store.hashCode h))

/-- The number of collections within one another whose elements are shown. -/
def dumpDepth : Nat := 5

def handleStep : HandleStep → Action Answer
  | .new h v => do
    let o ← v.build
    return .object (← deliver (some h) o)
  | .copy h source => do
    change fun s => s.setHandle h (s.handle source)
    return .nothing
  | .assign h source => do
    change fun s => s.setHandle h (s.handle source)
    return .flag (← ask fun s => (s.handle h).isNull)
  | .take h source => do
    let o ← share (← ask (·.handle source))
    change fun s => (s.clearHandle source).setHandle h o
    return .flag o.isNull
  | .reset h => do
    change (·.setHandle h .null)
    return .flag true
  | .drop h => do
    let known ← ask fun s => (s.handles.lookup h).isSome
    change (·.dropHandle h)
    return .flag known
  | .reclaim h => do
    change fun s => s.setHandle h (s.handle h)
    return .flag !(← ask fun s => (s.handle h).isNull)
  | .refs h => do return .number (← ask fun s => s.refs (s.handle h))
  | .show h => do return .object (← view (← ask (·.handle h)))
  | .dump h => do return .object (← dump dumpDepth (← ask (·.handle h)))
  | .isNull h => do
    let b ← ask fun s => (s.handle h).isNull
    return .flags [b, b, b]
  | .tryGet h => do
    let o ← ask (·.handle h)
    if o.isNull then throw (.object .nullReference)
    return .text (← query (·.display o))
  | .display h => do
    let o ← ask (·.handle h)
    return .text (← query (·.display o))
  | .text h => do
    let o ← ask (·.handle h)
    let _ ← query (·.demand o)
    return .text (← query (·.display o))
  | .debug h => do
    let o ← ask (·.handle h)
    if o.isNull then return .text "null"
    return .text ("Ptr<" ++ (← query (·.typeName o)) ++ ">")
  | .hash h => do
    let (shape, w) ← hash (← ask (·.handle h))
    return .ofHash shape.hasValueHash w
  | .keyHash h => do
    let o ← ask (·.handle h)
    return .ofHash (← ask fun s => (s.store.shape o).hasValueHash) (← ask (·.store.keyHash o))
  | .type h => do
    let t ← query (·.reportedType (← ask (·.handle h)))
    return .type (← ask (·.typeView t))
  | .sameHandle a b => do
    let e ← ask fun s => s.handle a == s.handle b
    return .flags [e, e, e]
  | .equals a b => do return .flag (← ask fun s => s.store.equals (s.handle a) (s.handle b))
  | .equalsMethod a b => do
    let _ ← query (·.demand (← ask (·.handle a)))
    return .flag (← ask fun s => s.store.objectEquals (s.handle a) (s.handle b))
  | .hashEquals a b => do
    let (_, v) ← hash (← ask (·.handle a))
    let (_, w) ← hash (← ask (·.handle b))
    return .flag (v == w)
  | .keyEquals a b => do
    return .flag (← ask fun s => ElementType.key.same s.store (s.handle a) (s.handle b))
  | .isKind h k => do return .flag (← ask fun s => s.store.isKind k (s.handle h))
  | .downcast h k => do return .flag (← ask fun s => (s.store.downcast? k (s.handle h)).isSome)
  | .tryCast h k target => do
    let o ← ask (·.handle h)
    let o ← convert (some k) (·.tryCast k o)
    return .object (← deliver target o)
  | .cast h k target => do
    let o ← cast k (← ask (·.handle h))
    return .object (← deliver target o)
  | .instanceOf h type => do
    let o ← ask (·.handle h)
    let t ← ask (·.type type)
    return .flag (← query (·.isInstanceOf o t))
  | .unbox h k => do
    let o ← ask (·.handle h)
    return .text (k.wrap (← convert (some (.scalar k)) (·.unbox k o))).text
  | .fromObject h t target => do
    let o ← ask (·.handle h)
    let v ← toElement t o
    return .object (← deliver target (← toObject t v))
  | .fromOption h t => do
    let o ← ask (·.handle h)
    match ← toElement (.option t) o with
    | none => return .optional none
    | some v => return .optional (some (← view (← toObject t v)))
  | .parts h key value => do
    let o ← cast .pair (← ask (·.handle h))
    match ← ask (·.store.body? o) with
    | some (.pair k v) => do
      let k ← share k
      let v ← share v
      let vs ← views [k, v]
      storeAs key k
      storeAs value v
      return .objects vs
    | _ => throw (.abort .nullReference)
  | .enumerate h => do
    let o ← ask (·.handle h)
    match ← enumerate o with
    | none => return .nothing
    | some hs => return .objects (← listed (← isUnordered o) hs)
  | .count h => do
    let o ← ask (·.handle h)
    let _ ← query (·.demand o)
    return .optionalNumber (← ask fun s => (s.store.contents? o).map fun c => (c.count : Int))
  | .openEnumerator h e => do
    let s ← get
    match s.openEnumerator? e (s.handle h) with
    | none => do
      set (s.dropEnumerator e)
      return .flag false
    | some s => do
      set s
      return .flag true
  | .snapshot e vs => do
    let hs ← Literal.buildAll vs
    change fun s => (s.mapRealm (·.shareAll hs)).setEnumerator e ⟨hs, false⟩
    return .nothing
  | .next e target => do
    match (← get).takeNext? e with
    | none => return .optional none
    | some (h, s) => do
      set s
      return .optional (some (← deliver target h))
  | .rest e => do
    match (← get).takeRest? e with
    | none => return .nothing
    | some (rest, s) => do
      set s
      return .objects (← listed rest.isUnordered rest.items)

end Action

end CountedObjects
