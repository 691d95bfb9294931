/-! Stable sorting in place of lists where some elements have no key. The sort ends at the first
comparison with such an element, and what was moved by then stays moved. Short lists are sorted by
insertion. Long ones are cut into runs, which are sorted and merged pairwise in the order of a
balanced tree. -/
namespace CountedObjects

/-- An order of elements by their keys; only elements with keys are compared. -/
structure KeyOrder (α : Type) where
  hasKey : α → Bool
  le : α → α → Bool

/-- Neighbouring elements that are sorted and merged together. -/
structure Run (α : Type) where
  items : List α
  isSorted : Bool

/-- How a list is cut into runs: the least length at which elements that are in order already make
up a run, and whether other runs are sorted as soon as they are cut. -/
structure RunPolicy where
  least : Nat
  isEager : Bool

namespace RunPolicy

/-- About the square root, by one step from the power of two next to it. -/
def approximateRoot (n : Nat) : Nat :=
  let shift := (1 + Nat.log2 n) / 2
  ((1 <<< shift) + (n >>> shift)) / 2

def ofSize (n : Nat) : RunPolicy where
  least := if n ≤ 4096 then min (n - n / 2) 64 else approximateRoot n
  isEager := n ≤ 64

end RunPolicy

namespace Run

variable {α : Type}

/-- The depth in the merge tree of the boundary between two runs of a list of `n` elements, which
begin at `first` and `middle` and end at `last`: the number of leading binary digits that the
midpoints of the two runs share, as parts of the list. -/
def depth (n first middle last : Nat) : Nat :=
  let scale := (0x4000000000000000 + n - 1) / n
  63 - Nat.log2 ((scale * (first + middle)) ^^^ (scale * (middle + last)))

/-- The elements of runs that wait to be merged, the last of which comes first. -/
def waiting (rs : List (Run α × Nat)) : List α := rs.reverse.flatMap (·.1.items)

end Run

namespace KeyOrder

variable {α : Type} (o : KeyOrder α)

def sorted (xs : List α) : List α := xs.mergeSort o.le

/-- A single element is compared with none, so that it needs no key. -/
def isSortable (xs : List α) : Bool := xs.length ≤ 1 || xs.all o.hasKey

/-- Elements before the first one without a key are in order, the others have not moved. -/
def afterInsertion (xs : List α) : List α :=
  o.sorted (xs.takeWhile o.hasKey) ++ xs.dropWhile o.hasKey

/-- Sorts the elements aside, where both halves come first. The halves are put back once both are
in order; before that nothing moves. -/
def sortAside (xs : List α) : Except (List α) (List α) :=
  if o.isSortable xs then .ok (o.sorted xs)
  else
    let (l, r) := xs.splitAt (xs.length / 2)
    .error (if o.isSortable l && o.isSortable r then o.sorted l ++ o.sorted r else xs)

def sortRun (r : Run α) : Except (List α) (List α) :=
  if r.isSorted then .ok r.items else o.sortAside r.items

/-- Merges neighbouring runs. Two runs that are not sorted are joined, to be sorted together. -/
def merge (l r : Run α) : Except (List α) (Run α) :=
  if l.isSorted || r.isSorted then do
    let xs ← (o.sortRun l).mapError (· ++ r.items)
    let ys ← (o.sortRun r).mapError (xs ++ ·)
    if (xs ++ ys).all o.hasKey then return ⟨xs.merge ys o.le, true⟩ else throw (xs ++ ys)
  else return ⟨l.items ++ r.items, false⟩

/-- The number of elements at the front that are in order or strictly in reverse. There is none if
the search for it meets an element without a key. -/
def front? (xs : List α) : Option Nat :=
  let ks := xs.takeWhile o.hasKey
  let n :=
    match List.zipWith o.le ks ks.tail with
    | [] => ks.length
    | b :: bs => 2 + (bs.takeWhile (· == b)).length
  if n = ks.length ∧ n < xs.length then none else some n

/-- Cuts a run off the front of a list. -/
def nextRun (p : RunPolicy) (xs : List α) : Except (List α) (Run α × List α) :=
  match if p.least ≤ xs.length then o.front? xs else some 0 with
  | none => .error xs
  | some n =>
    if p.least ≤ n then .ok (⟨o.sorted (xs.take n), true⟩, xs.drop n)
    else if p.isEager then do
      let ys ← (o.sortAside (xs.take 32)).mapError (· ++ xs.drop 32)
      return (⟨ys, true⟩, xs.drop 32)
    else .ok (⟨xs.take p.least, false⟩, xs.drop p.least)

/-- Merges a run with those before it whose boundaries are at least as deep as the next one. -/
def collapse (depth : Nat) :
    List (Run α × Nat) → Run α → Except (List α) (List (Run α × Nat) × Run α)
  | [], r => .ok ([], r)
  | (l, d) :: rs, r =>
    if depth ≤ d then do
      let r ← (o.merge l r).mapError (Run.waiting rs ++ ·)
      collapse depth rs r
    else .ok ((l, d) :: rs, r)

/-- Cuts off the next run before the last one is merged with those that wait. Every run has an
element, so that the length of the list bounds their number. -/
def sortFrom (n : Nat) (p : RunPolicy) :
    Nat → List (Run α × Nat) → Run α → List α → Except (List α) (List α)
  | _, rs, r, [] => do
    let (_, r) ← o.collapse 0 rs r
    o.sortRun r
  | 0, rs, r, xs => .error (Run.waiting rs ++ r.items ++ xs)
  | fuel + 1, rs, r, xs => do
    let (next, rest) ← (o.nextRun p xs).mapError (Run.waiting rs ++ r.items ++ ·)
    let middle := n - xs.length
    let depth := Run.depth n (middle - r.items.length) middle (middle + next.items.length)
    let (rs, r) ← (o.collapse depth rs r).mapError (· ++ next.items ++ rest)
    sortFrom n p fuel ((r, depth) :: rs) next rest

def sortByRuns (xs : List α) : Except (List α) (List α) := do
  let p := RunPolicy.ofSize xs.length
  let (r, rest) ← o.nextRun p xs
  o.sortFrom xs.length p xs.length [] r rest

/-- Sorts so that elements with one key keep their order. Otherwise an element without a key was
met, and this is how the elements are left. -/
def sort (xs : List α) : Except (List α) (List α) :=
  if o.isSortable xs then .ok (o.sorted xs)
  else if xs.length ≤ 20 then .error (o.afterInsertion xs)
  else o.sortByRuns xs

end KeyOrder

end CountedObjects
