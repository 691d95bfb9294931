import CountedObjects.Collection.Runs
import CountedObjects.Element

/-! The orders in which a list can be sorted. -/
namespace CountedObjects

inductive SortBy
  | nothing
  | text
  | textDescending
  | length
  | number
  | numberDescending
  | magnitude
  | lastDigit

/-- What an element is ordered by: a text, then a number. -/
structure SortKey where
  text : String
  number : Int

namespace SortKey

def atMost (a b : SortKey) : Bool :=
  ((compare a.text b.text).then (compare a.number b.number)).isLE

end SortKey

namespace SortBy

def isDescending : SortBy → Bool
  | textDescending | numberDescending => true
  | _ => false

def key (order : SortBy) (s : Store) (t : ElementType) (v : t.Value) : Result SortKey :=
  match order with
  | nothing => .ok ⟨"", 0⟩
  | text | textDescending => do return ⟨← t.display s v, 0⟩
  | length => do return ⟨"", (← t.display s v).utf8ByteSize⟩
  | number | numberDescending => do return ⟨"", ← t.number s v⟩
  | magnitude => do return ⟨"", (← t.number s v).natAbs⟩
  | lastDigit => do return ⟨"", (← t.number s v) % 10⟩

def atMost (order : SortBy) (a b : SortKey) : Bool :=
  if order.isDescending then b.atMost a else a.atMost b

/-- The order of elements beside which their keys are noted. -/
def keyOrder {α : Type} (order : SortBy) : KeyOrder (Result SortKey × α) where
  hasKey x := x.1.isOk
  le x y :=
    match x.1, y.1 with
    | .ok a, .ok b => order.atMost a b
    | _, _ => true

/-- Sorts so that elements with one key keep their order. An element without a key ends the
sorting, and the elements stay as they are by then. -/
def sort (order : SortBy) (s : Store) (t : ElementType) (xs : List t.Value) :
    List t.Value × Result Unit :=
  let ks := xs.map fun v => (order.key s t v, v)
  match order.keyOrder.sort ks with
  | .ok ys => (ys.map (·.2), .ok ())
  | .error ys => (ys.map (·.2), ks.forM fun k => k.1.map fun _ => ())

end SortBy

end CountedObjects
