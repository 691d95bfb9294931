import CountedObjects.Shape

/-! What is shown of an object: the name of its type, its text and what its kind adds. -/
namespace CountedObjects

inductive View
  | null
  | plain (type text : String)
  | member (type text : String) (ordinal : Int32)
  | assembled (type text tag : String) (arguments : List View)
  | collection (type text : String) (items : List View)
  | truncated (type text : String)

namespace View

structure Rank where
  type : Option String
  text : Option String
  ordinal : Option Int
  tag : Option String

def rank : View → Rank
  | null => ⟨none, none, none, none⟩
  | plain t x => ⟨some t, some x, none, none⟩
  | member t x n => ⟨some t, some x, some n.toInt, none⟩
  | assembled t x g _ => ⟨some t, some x, none, some g⟩
  | collection t x _ => ⟨some t, some x, none, none⟩
  | truncated t x => ⟨some t, some x, none, none⟩

/-- A missing value comes before any other. -/
def compareOptional {α : Type} [Ord α] : Option α → Option α → Ordering
  | none, none => .eq
  | none, some _ => .lt
  | some _, none => .gt
  | some a, some b => compare a b

def compareRank (a b : Rank) : Ordering :=
  (compareOptional a.type b.type).then <|
    (compareOptional a.text b.text).then <|
      (compareOptional a.ordinal b.ordinal).then (compareOptional a.tag b.tag)

/-- By type, then text, then ordinal, then tag. -/
def before (a b : View) : Bool := (compareRank a.rank b.rank).isLE

def sort (vs : List View) : List View := vs.mergeSort before

end View

namespace Store

/-- Arguments of an assembled object are older than the object. -/
def view (s : Store) : Handle → Result View
  | .null => .ok .null
  | .type d => do return .plain (← s.typeName (.type d)) d.fullName
  | .object id => do
    let type ← s.typeName (.object id)
    let text ← s.display (.object id)
    match (s.find? id).map Cell.body with
    | some (.enumValue _ n) => return .member type text n
    | some (.dyn _ tag hs) =>
      return .assembled type text tag
        (← hs.mapM fun h => if h.rank ≤ id then s.view h else .ok .null)
    | _ => return .plain type text
termination_by h => h.rank
decreasing_by simp only [Handle.rank] at *; omega

def views (s : Store) (hs : List Handle) : Result (List View) := hs.mapM s.view

end Store

end CountedObjects
