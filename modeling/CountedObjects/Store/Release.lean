import CountedObjects.Store.Basic

/-! Releasing handles. The last handle to an object destroys it and releases what it held. -/
namespace CountedObjects

/-- The sum of the weights of the elements of a list. -/
def total {α : Type} (w : α → Nat) : List α → Nat
  | [] => 0
  | x :: xs => w x + total w xs

theorem total_set {α : Type} (w : α → Nat) {xs : List α} {i : Nat} {a : α} (h : xs[i]? = some a)
    (b : α) : total w (xs.set i b) + w a = total w xs + w b := by
  induction xs generalizing i with
  | nil => cases h
  | cons x xs ih =>
    cases i with
    | zero =>
      cases h
      simp only [List.set_cons_zero, total]
      omega
    | succ i =>
      have hi := ih h
      simp only [List.set_cons_succ, total]
      omega

namespace Cell

/-- One for the object and one for each handle it holds. -/
def weight : Option Cell → Nat
  | some c => 1 + c.body.owned.length
  | none => 0

end Cell

namespace Store

def weight (s : Store) : Nat := total Cell.weight s.cells.toList

theorem getElem?_of_find? {s : Store} {id : Nat} {c : Cell} (h : s.find? id = some c) :
    s.cells.toList[id]? = some (some c) := by
  simpa [find?, Option.join_eq_some_iff] using h

theorem weight_destroy {s : Store} {id : Nat} {c : Cell} (h : s.find? id = some c) (b : Body) :
    (s.destroy id b).weight + (1 + c.body.owned.length) = s.weight := by
  have := total_set Cell.weight (getElem?_of_find? h) none
  simpa [weight, destroy, Array.toList_setIfInBounds, Cell.weight] using this

theorem weight_put {s : Store} {id : Nat} {c d : Cell} (h : s.find? id = some c)
    (hb : d.body = c.body) : (s.put id d).weight = s.weight := by
  have := total_set Cell.weight (getElem?_of_find? h) (some d)
  simpa [weight, put, Array.toList_setIfInBounds, Cell.weight, hb] using this

/-- Releases handles one after the other. -/
def releaseAll (s : Store) : List Handle → Store
  | [] => s
  | .null :: hs => s.releaseAll hs
  | .type _ :: hs => s.releaseAll hs
  | .object id :: hs =>
    match _h : s.find? id with
    | none => s.releaseAll hs
    | some c =>
      if c.refs ≤ 1 then (s.destroy id c.body).releaseAll (c.body.owned ++ hs)
      else (s.put id { c with refs := c.refs - 1 }).releaseAll hs
termination_by hs => s.weight + hs.length
decreasing_by
  all_goals simp only [List.length_cons, List.length_append]
  · omega
  · omega
  · omega
  · have := weight_destroy _h c.body
    omega
  · have := weight_put _h (d := { c with refs := c.refs - 1 }) rfl
    omega

/-- Makes an object with one handle to it, which the caller owns. -/
def alloc (s : Store) (type : Descriptor) (body : Body) : Nat × Store :=
  let s := s.attachAll body.owned
  (s.cells.size, { s with cells := s.cells.push (some ⟨type, 1, body⟩) })

def setContents (s : Store) (id : Nat) (c : Contents) : Store :=
  { s with cells := s.cells.modify id fun x => x.map fun x => { x with body := .collection c } }

/-- Changes what a collection holds; an object keeps its kind. What it now holds is attached
before what it held is released, so a handle that stays is never the last one for a moment. -/
def replace (s : Store) (id : Nat) (c : Contents) : Store :=
  match s.contents? (.object id) with
  | none => s
  | some old =>
    if old.kind = c.kind then ((s.attachAll c.owned).setContents id c).releaseAll old.owned else s

end Store

end CountedObjects
