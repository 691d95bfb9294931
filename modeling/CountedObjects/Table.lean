/-! Slots of a hash table: a key is looked for by its hash first and then by comparison. -/
namespace CountedObjects

/-- How keys are hashed and compared. Equal keys must hash alike to be found. -/
structure Keying (κ : Type) where
  hash : κ → UInt64
  same : κ → κ → Bool

/-- A stored key with the hash it had when it was stored. -/
structure Slot (κ ν : Type) where
  hash : UInt64
  key : κ
  value : ν
  deriving DecidableEq

namespace Slot

variable {κ ν : Type}

def holds (q : Keying κ) (key : κ) (s : Slot κ ν) : Bool :=
  s.hash == q.hash key && q.same key s.key

end Slot

namespace Table

variable {κ ν : Type}

def find? (q : Keying κ) (key : κ) (t : List (Slot κ ν)) : Option (Slot κ ν) :=
  t.find? (Slot.holds q key)

def contains (q : Keying κ) (key : κ) (t : List (Slot κ ν)) : Bool :=
  t.any (Slot.holds q key)

def get? (q : Keying κ) (key : κ) (t : List (Slot κ ν)) : Option ν :=
  (find? q key t).map Slot.value

/-- Gives the key a value. A slot that is already there keeps its key. -/
def insert (q : Keying κ) (key : κ) (value : ν) : List (Slot κ ν) → List (Slot κ ν)
  | [] => [⟨q.hash key, key, value⟩]
  | s :: t =>
    if s.holds q key then { s with value := value } :: t
    else s :: insert q key value t

def erase (q : Keying κ) (key : κ) (t : List (Slot κ ν)) : List (Slot κ ν) :=
  t.eraseP (Slot.holds q key)

/-- A table of keys alone. -/
def ofKeys (q : Keying κ) (ks : List κ) : List (Slot κ Unit) :=
  ks.foldl (fun t k => insert q k () t) []

def insertAll (q : Keying κ) (t : List (Slot κ Unit)) (ks : List κ) : List (Slot κ Unit) :=
  ks.foldl (fun t k => insert q k () t) t

/-- The slots whose keys are found among `ks`. -/
def retain (q : Keying κ) (t : List (Slot κ Unit)) (ks : List κ) : List (Slot κ Unit) :=
  let kept := ofKeys q ks
  t.filter fun s => contains q s.key kept

end Table

end CountedObjects
