import CountedObjects.Fault

/-! Positions and searches in a list, and the two ends of a queue. -/
namespace CountedObjects.Sequence

variable {α : Type}

private def outOfRange {β : Type} (i : Nat) (xs : List α) : Result β :=
  .error (.collection (.indexOutOfRange i xs.length))

def get (xs : List α) (i : Nat) : Result α :=
  match xs[i]? with
  | some x => .ok x
  | none => outOfRange i xs

def set (xs : List α) (i : Nat) (x : α) : Result (List α) :=
  if i < xs.length then .ok (List.set xs i x) else outOfRange i xs

/-- An element may be inserted before any other and at the end. -/
def insert (xs : List α) (i : Nat) (x : α) : Result (List α) :=
  if i ≤ xs.length then .ok (xs.insertIdx i x) else outOfRange i xs

def removeAt (xs : List α) (i : Nat) : Result (α × List α) :=
  match xs[i]? with
  | some x => .ok (x, xs.eraseIdx i)
  | none => outOfRange i xs

/-- The first position whose element is the same as `x`. -/
def indexOf? (same : α → α → Bool) (x : α) (xs : List α) : Option Nat :=
  xs.findIdx? fun y => same y x

def contains (same : α → α → Bool) (x : α) (xs : List α) : Bool :=
  xs.any fun y => same y x

/-- Removes the first element that is the same as `x`. -/
def remove? (same : α → α → Bool) (x : α) (xs : List α) : Option (List α) :=
  (indexOf? same x xs).map xs.eraseIdx

/-- The front of a queue and what is behind it. -/
def dequeue : List α → Result (α × List α)
  | [] => .error (.collection .empty)
  | x :: xs => .ok (x, xs)

def peek (xs : List α) : Result α := (dequeue xs).map (·.1)

end CountedObjects.Sequence
