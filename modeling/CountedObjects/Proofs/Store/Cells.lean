import CountedObjects.Store.Release

/-! What each operation on a store does to the places in it and to the handles that objects hold.
The operations are not unfolded after this module. -/
namespace CountedObjects

theorem count_flatMap {α : Type} (f : α → List Handle) (xs : List α) (h : Handle) :
    (xs.flatMap f).count h = total (fun x => (f x).count h) xs := by
  induction xs with
  | nil => rfl
  | cons x xs ih => rw [List.flatMap_cons, List.count_append, ih, total]

namespace Body

/-- Only the contents of a collection change, and never its kind. -/
inductive Becomes : Body → Body → Prop
  | refl (b : Body) : Becomes b b
  | contents {c d : Contents} (h : d.kind = c.kind) : Becomes (.collection c) (.collection d)

theorem Becomes.trans {a b c : Body} (h : Becomes a b) (h' : Becomes b c) : Becomes a c := by
  cases h with
  | refl => exact h'
  | contents h =>
    cases h' with
    | refl => exact .contents h
    | contents h' => exact .contents (h'.trans h)

theorem Becomes.parts {a b : Body} (h : Becomes a b) : b.parts = a.parts := by
  cases h <;> rfl

theorem Becomes.kind {a b : Body} (h : Becomes a b) : b.kind = a.kind := by
  cases h with
  | refl => rfl
  | contents hkind => exact hkind

/-- No collection, or one without elements. -/
def IsBare : Body → Prop
  | collection c => c.count = 0
  | _ => True

/-- An object that holds neither handles nor elements. -/
structure IsEmpty (b : Body) : Prop where
  owned : b.owned = []
  bare : b.IsBare

theorem mem_owned_of_mem_parts {b : Body} {h : Handle} (hh : h ∈ b.parts) : h ∈ b.owned := by
  cases b <;> first | exact hh | exact absurd hh List.not_mem_nil

end Body

namespace Cell

/-- What an object is, apart from the number of handles to it, stays as it is. -/
structure Alike (c d : Cell) : Prop where
  type : d.type = c.type
  body : d.body = c.body

/-- What becomes of an object while it lives. -/
structure Becomes (c d : Cell) : Prop where
  type : d.type = c.type
  body : c.body.Becomes d.body

theorem Alike.refl (c : Cell) : c.Alike c := ⟨rfl, rfl⟩

theorem Alike.trans {a b c : Cell} (h : a.Alike b) (h' : b.Alike c) : a.Alike c :=
  ⟨h'.type.trans h.type, h'.body.trans h.body⟩

theorem Alike.becomes {c d : Cell} (h : c.Alike d) : c.Becomes d :=
  ⟨h.type, h.body ▸ .refl _⟩

theorem Becomes.trans {a b c : Cell} (h : a.Becomes b) (h' : b.Becomes c) : a.Becomes c :=
  ⟨h'.type.trans h.type, h.body.trans h'.body⟩

/-- The handles that a place in the store holds. -/
def held : Option Cell → List Handle
  | some c => c.body.owned
  | none => []

end Cell

namespace Store

/-- The handles that objects hold. -/
def owned (s : Store) : List Handle := s.cells.toList.flatMap Cell.held

/-- An object that was made and is not destroyed. -/
def IsLive (s : Store) (id : Nat) : Prop := ∃ c, s.find? id = some c

/-- A handle that does not point to a destroyed object or to one that was never made. -/
def Safe (s : Store) (h : Handle) : Prop := ∀ id, h = .object id → s.IsLive id

def SafeAll (s : Store) (hs : List Handle) : Prop := ∀ h ∈ hs, s.Safe h

variable {s t : Store} {id j : Nat} {c d : Cell} {h : Handle}

theorem find?_eq_some_iff : s.find? id = some c ↔ s.cells[id]? = some (some c) := by
  simp [find?, Option.join_eq_some_iff]

theorem lt_size_of_find? (h : s.find? id = some c) : id < s.cells.size := by
  obtain ⟨hlt, -⟩ := Array.getElem?_eq_some_iff.mp (find?_eq_some_iff.mp h)
  exact hlt

theorem IsLive.lt_size (h : s.IsLive id) : id < s.cells.size := by
  obtain ⟨c, hc⟩ := h
  exact lt_size_of_find? hc

theorem not_isLive_iff : ¬ s.IsLive id ↔ s.find? id = none := by
  simp [IsLive, Option.eq_none_iff_forall_ne_some]

theorem safe_null : s.Safe .null := fun _ h => Handle.noConfusion h

theorem Safe.isLive (h : s.Safe (.object id)) : s.IsLive id := h id rfl

theorem safeAll_nil (s : Store) : s.SafeAll [] := List.forall_mem_nil _

theorem safeAll_pair {k v : Handle} : s.SafeAll [k, v] ↔ s.Safe k ∧ s.Safe v := by
  simp [SafeAll]

theorem find?_put (h : s.find? id = some c) (d : Cell) (j : Nat) :
    (s.put id d).find? j = if j = id then some d else s.find? j := by
  have hlt := lt_size_of_find? h
  by_cases hj : j = id
  · subst hj
    simp [find?, put, hlt]
  · simp [find?, put, hj, Ne.symm hj]

theorem find?_destroy (s : Store) (id : Nat) (b : Body) (j : Nat) :
    (s.destroy id b).find? j = if j = id then none else s.find? j := by
  by_cases hj : j = id
  · subst hj
    by_cases hlt : j < s.cells.size <;> simp [find?, destroy, hlt]
  · simp [find?, destroy, hj, Ne.symm hj]

/-- The store with one more object. -/
def push (s : Store) (c : Cell) : Store := { s with cells := s.cells.push (some c) }

theorem find?_push (s : Store) (c : Cell) (j : Nat) :
    (s.push c).find? j = if j = s.cells.size then some c else s.find? j := by
  by_cases hj : j = s.cells.size
  · simp [find?, push, hj]
  · simp [find?, push, Array.getElem?_push, hj]

/-- Changing what a collection holds puts another cell in its place. -/
theorem setContents_eq_put (hc : s.find? id = some c) (x : Contents) :
    s.setContents id x = s.put id { c with body := .collection x } := by
  have h := find?_eq_some_iff.mp hc
  have hlt := lt_size_of_find? hc
  have hcells : s.cells.modify id (fun y => y.map fun y => { y with body := .collection x }) =
      s.cells.setIfInBounds id (some { c with body := .collection x }) := by
    apply Array.ext_getElem?
    intro j
    rw [Array.getElem?_modify, Array.getElem?_setIfInBounds]
    by_cases hj : id = j
    · subst hj
      simp only [h, hlt, if_true, Option.map_some]
    · rw [if_neg hj, if_neg hj]
  rw [setContents, put, hcells]

theorem refs_of_find? (h : s.find? id = some c) : s.refs id = c.refs := by simp [refs, h]

theorem refs_of_none (h : s.find? id = none) : s.refs id = 0 := by simp [refs, h]

theorem mem_owned : h ∈ s.owned ↔ ∃ id c, s.find? id = some c ∧ h ∈ c.body.owned := by
  rw [owned, List.mem_flatMap]
  constructor
  · intro hx
    rcases hx with ⟨x, hx, hh⟩
    cases x with
    | none => exact absurd hh List.not_mem_nil
    | some c =>
      obtain ⟨id, hid⟩ := List.mem_iff_getElem?.mp hx
      exact ⟨id, c, find?_eq_some_iff.mpr (by simpa using hid), hh⟩
  · intro hx
    rcases hx with ⟨id, c, hc, hh⟩
    exact ⟨some c, List.mem_of_getElem? (getElem?_of_find? hc), hh⟩

theorem count_owned (s : Store) (h : Handle) :
    s.owned.count h = total (fun x => (Cell.held x).count h) s.cells.toList :=
  count_flatMap Cell.held _ h

theorem count_owned_put (hc : s.find? id = some c) (d : Cell) (h : Handle) :
    (s.put id d).owned.count h + c.body.owned.count h = s.owned.count h + d.body.owned.count h := by
  have := total_set (fun x => (Cell.held x).count h) (getElem?_of_find? hc) (some d)
  simpa [count_owned, put, Array.toList_setIfInBounds, Cell.held] using this

theorem count_owned_destroy (hc : s.find? id = some c) (b : Body) (h : Handle) :
    (s.destroy id b).owned.count h + c.body.owned.count h = s.owned.count h := by
  have := total_set (fun x => (Cell.held x).count h) (getElem?_of_find? hc) none
  simpa [count_owned, destroy, Array.toList_setIfInBounds, Cell.held] using this

theorem owned_push (s : Store) (c : Cell) : (s.push c).owned = s.owned ++ c.body.owned := by
  simp [owned, push, Cell.held]

theorem find?_alloc (s : Store) (d : Descriptor) (b : Body) :
    (s.alloc d b).2.find? (s.alloc d b).1 = some ⟨d, 1, b⟩ := by
  simp [alloc, find?]

theorem attach_object (hc : s.find? id = some c) :
    s.attach (.object id) = s.put id { c with refs := c.refs + 1 } := by
  simp [attach, hc]

theorem body?_attach (s : Store) (o x : Handle) : (s.attach o).body? x = s.body? x := by
  cases o with
  | null | type => rfl
  | object id =>
    cases hc : s.find? id with
    | none => simp [attach, hc]
    | some c =>
      rw [attach_object hc]
      cases x with
      | null | type => rfl
      | object j =>
        rw [body?, body?, find?_put hc]
        split
        · next hj => rw [hj, hc]; rfl
        · rfl

end Store

end CountedObjects
