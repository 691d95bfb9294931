import CountedObjects.Session.Lists

/-! Steps on hash sets and dictionaries. -/
namespace CountedObjects

inductive SetStep
  | new (h : String) (t : ElementType)
  | add (h : String) (v : Literal)
  | contains (h : String) (v : Literal)
  | remove (h : String) (v : Literal)
  | union (h : String) (source : Source)
  | intersect (h : String) (source : Source)
  | count (h : String)
  | clear (h : String)
  | toVec (h : String)

inductive DictionaryStep
  | new (h : String) (k v : ElementType)
  | add (h : String) (k v : Literal)
  | set (h : String) (k v : Literal)
  | get (h : String) (k : Literal) (target : Option String)
  | tryGet (h : String) (k : Literal)
  | containsKey (h : String) (k : Literal)
  | containsValue (h : String) (v : Literal)
  | remove (h : String) (k : Literal)
  | keys (h : String)
  | values (h : String)
  | count (h : String)
  | clear (h : String)

structure OpenSet where
  id : Option Nat
  element : ElementType
  slots : List (Slot element.Value Unit)

structure OpenDictionary where
  id : Option Nat
  key : ElementType
  value : ElementType
  slots : List (Slot key.Value value.Value)

namespace Action

def openSet (h : String) : Action OpenSet := do
  let o ← ask (·.handle h)
  match o, ← ask (·.store.contents? o) with
  | .object id, some (.hashSet t ss) => return ⟨some id, t, ss⟩
  | _, _ => do
    let _ ← cast (.hashSet .key) o
    return ⟨none, .key, []⟩

def openDictionary (h : String) : Action OpenDictionary := do
  let o ← ask (·.handle h)
  match o, ← ask (·.store.contents? o) with
  | .object id, some (.dictionary k v ss) => return ⟨some id, k, v, ss⟩
  | _, _ => do
    let _ ← cast (.dictionary .key .object) o
    return ⟨none, .key, .object, []⟩

def keying (t : ElementType) : Action (Keying t.Value) := ask fun s => t.keying s.store

def setStep : SetStep → Action Answer
  | .new h t => do
    let c ← make (.collection (.hashSet t []))
    change (·.setHandle h c)
    return .nothing
  | .add h v => do
    let c ← openSet h
    let x ← v.element c.element
    let id ← demandId c.id
    let q ← keying c.element
    replace id (.hashSet c.element (Table.insert q x () c.slots))
    return .flag !(Table.contains q x c.slots)
  | .contains h v => do
    let c ← openSet h
    let x ← v.element c.element
    let _ ← demandId c.id
    return .flag (Table.contains (← keying c.element) x c.slots)
  | .remove h v => do
    let c ← openSet h
    let x ← v.element c.element
    let id ← demandId c.id
    let q ← keying c.element
    replace id (.hashSet c.element (Table.erase q x c.slots))
    return .flag (Table.contains q x c.slots)
  | .union h source => do
    let c ← openSet h
    let xs ← elementsOf c.element source
    let id ← demandId c.id
    let ss := Table.insertAll (← keying c.element) c.slots xs
    replace id (.hashSet c.element ss)
    return .number ss.length
  | .intersect h source => do
    let c ← openSet h
    let xs ← elementsOf c.element source
    let id ← demandId c.id
    let ss := Table.retain (← keying c.element) c.slots xs
    replace id (.hashSet c.element ss)
    return .number ss.length
  | .count h => do
    let c ← openSet h
    let _ ← demandId c.id
    return .size c.slots.length
  | .clear h => do
    let c ← openSet h
    replace (← demandId c.id) (.hashSet c.element [])
    return .nothing
  | .toVec h => do
    let c ← openSet h
    let _ ← demandId c.id
    return .objects (View.sort (← showElements c.element (c.slots.map Slot.key)))

def dictionaryStep : DictionaryStep → Action Answer
  | .new h k v => do
    let c ← make (.collection (.dictionary k v []))
    change (·.setHandle h c)
    return .nothing
  | .add h k v => do
    let c ← openDictionary h
    let key ← k.element c.key
    let value ← v.element c.value
    let id ← demandId c.id
    let q ← keying c.key
    if Table.contains q key c.slots then
      throw (.collection (.duplicateKey (← query fun s => c.key.display s key)))
    replace id (.dictionary c.key c.value (Table.insert q key value c.slots))
    return .nothing
  | .set h k v => do
    let c ← openDictionary h
    let key ← k.element c.key
    let value ← v.element c.value
    let id ← demandId c.id
    let q ← keying c.key
    let old ← (Table.get? q key c.slots).mapM (toObject c.value)
    replace id (.dictionary c.key c.value (Table.insert q key value c.slots))
    return .optional (← old.mapM view)
  | .get h k target => do
    let c ← openDictionary h
    let key ← k.element c.key
    let _ ← demandId c.id
    match Table.get? (← keying c.key) key c.slots with
    | some value => return .object (← deliver target (← toObject c.value value))
    | none => throw (.collection (.keyNotFound (← query fun s => c.key.display s key)))
  | .tryGet h k => do
    let c ← openDictionary h
    let key ← k.element c.key
    let _ ← demandId c.id
    let value ← (Table.get? (← keying c.key) key c.slots).mapM (toObject c.value)
    return .optional (← value.mapM view)
  | .containsKey h k => do
    let c ← openDictionary h
    let key ← k.element c.key
    let _ ← demandId c.id
    return .flag (Table.contains (← keying c.key) key c.slots)
  | .containsValue h v => do
    let c ← openDictionary h
    let value ← v.element c.value
    let _ ← demandId c.id
    let same := c.value.same (← get).store
    return .flag (Sequence.contains same value (c.slots.map Slot.value))
  | .remove h k => do
    let c ← openDictionary h
    let key ← k.element c.key
    let id ← demandId c.id
    let q ← keying c.key
    replace id (.dictionary c.key c.value (Table.erase q key c.slots))
    return .flag (Table.contains q key c.slots)
  | .keys h => do
    let c ← openDictionary h
    let _ ← demandId c.id
    return .objects (View.sort (← showElements c.key (c.slots.map Slot.key)))
  | .values h => do
    let c ← openDictionary h
    let _ ← demandId c.id
    return .objects (View.sort (← showElements c.value (c.slots.map Slot.value)))
  | .count h => do
    let c ← openDictionary h
    let _ ← demandId c.id
    return .size c.slots.length
  | .clear h => do
    let c ← openDictionary h
    replace (← demandId c.id) (.dictionary c.key c.value [])
    return .nothing

end Action

end CountedObjects
