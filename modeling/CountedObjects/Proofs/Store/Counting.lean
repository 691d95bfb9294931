import CountedObjects.Proofs.Store.Cells

/-! Counted stores: every object has as many references as there are handles to it among those
that its owners and the other objects hold. Attaching, making and releasing keep stores counted. -/
namespace CountedObjects.Store

/-- The owners are the handles held outside the store, each as often as it is held. -/
structure Counted (s : Store) (owners : List Handle) : Prop where
  refs_eq : ∀ id, s.refs id = owners.count (.object id) + s.owned.count (.object id)
  refs_pos : ∀ {id c}, s.find? id = some c → 0 < c.refs

/-- One object holds a handle to another. -/
def Owns (s : Store) (i j : Nat) : Prop := ∃ c, s.find? i = some c ∧ .object j ∈ c.body.owned

variable {s t : Store} {id j : Nat} {c d : Cell} {h : Handle} {hs os : List Handle}

theorem object_mem_owned : .object j ∈ s.owned ↔ ∃ i, s.Owns i j := mem_owned

namespace Counted

theorem congr {os' : List Handle} (h : s.Counted os)
    (ho : ∀ id, os'.count (.object id) = os.count (.object id)) : s.Counted os' where
  refs_eq id := by rw [ho, h.refs_eq]
  refs_pos := h.refs_pos

/-- An object is live exactly if there is a handle to it. -/
theorem isLive_iff (h : s.Counted os) : s.IsLive id ↔ .object id ∈ os ∨ ∃ i, s.Owns i id := by
  rw [← object_mem_owned, ← List.count_pos_iff (l := os), ← List.count_pos_iff (l := s.owned)]
  have hr := h.refs_eq id
  constructor
  · intro hl
    rcases hl with ⟨c, hc⟩
    have := h.refs_pos hc
    rw [refs_of_find? hc] at hr
    omega
  · intro hp
    cases hc : s.find? id with
    | some c => exact ⟨c, hc⟩
    | none =>
      rw [refs_of_none hc] at hr
      omega

theorem isLive_of_mem (h : s.Counted os) (hm : .object id ∈ os) : s.IsLive id :=
  h.isLive_iff.mpr (.inl hm)

theorem isLive_of_owns (h : s.Counted os) (ho : s.Owns j id) : s.IsLive id :=
  h.isLive_iff.mpr (.inr ⟨j, ho⟩)

theorem safe_of_mem (h : s.Counted os) {x : Handle} (hm : x ∈ os) : s.Safe x := by
  rintro id rfl
  exact h.isLive_of_mem hm

/-- No object holds a handle to a destroyed one. -/
theorem safe_of_owned (h : s.Counted os) (hc : s.find? id = some c) {x : Handle}
    (hx : x ∈ c.body.owned) : s.Safe x := by
  rintro j rfl
  exact h.isLive_of_owns ⟨c, hc, hx⟩

/-- Putting a cell in the place of another one, with one handle among the owners changed for
another where the objects hold others than before. -/
theorem put {os' : List Handle} (h : s.Counted os) (hc : s.find? id = some c) (hd : 0 < d.refs)
    (ho : ∀ j, os'.count (.object j) + d.body.owned.count (.object j) +
        (if j = id then c.refs else 0) =
      os.count (.object j) + c.body.owned.count (.object j) + if j = id then d.refs else 0) :
    (s.put id d).Counted os' where
  refs_eq j := by
    have h₁ := count_owned_put hc d (.object j)
    have h₂ := h.refs_eq j
    have h₃ := ho j
    have h₄ : (s.put id d).refs j = if j = id then d.refs else s.refs j := by
      simp only [refs, find?_put hc]
      split <;> rfl
    rw [h₄]
    split
    · next hj =>
      subst hj
      rw [refs_of_find? hc] at h₂
      simp only [if_true] at h₃
      omega
    · next hj =>
      simp only [hj, if_false] at h₃
      omega
  refs_pos {j e} he := by
    rw [find?_put hc] at he
    split at he
    · cases he
      exact hd
    · exact h.refs_pos he

theorem attach (h : s.Counted os) {x : Handle} (hx : s.Safe x) :
    (s.attach x).Counted (x :: os) := by
  cases x with
  | null => exact h.congr fun id => by simp
  | type d => exact h.congr fun id => by simp
  | object id =>
    obtain ⟨c, hc⟩ := hx.isLive
    rw [attach_object hc]
    refine h.put hc (Nat.succ_pos _) fun j => ?_
    by_cases hj : j = id
    · subst hj
      simp only [List.count_cons_self, if_true]
      omega
    · simp [hj, Ne.symm hj]

theorem push (h : s.Counted (c.body.owned ++ os)) (hc : c.refs = 1) :
    (s.push c).Counted (.object s.cells.size :: os) where
  refs_eq j := by
    have hr := h.refs_eq j
    simp only [List.count_append] at hr
    by_cases hj : j = s.cells.size
    · subst hj
      have hn : s.find? s.cells.size = none :=
        not_isLive_iff.mp fun hl => Nat.lt_irrefl _ hl.lt_size
      rw [refs_of_none hn] at hr
      rw [refs_of_find? (c := c) (by simp [find?_push]), owned_push, List.count_cons_self,
        List.count_append]
      omega
    · have hf : (s.push c).refs j = s.refs j := by simp [refs, find?_push, hj]
      rw [hf, owned_push, List.count_append, List.count_cons_of_ne (by simpa using Ne.symm hj)]
      omega
  refs_pos {j d} hd := by
    rw [find?_push] at hd
    split at hd
    · cases hd
      omega
    · exact h.refs_pos hd

/-- The only handle to an object goes and with it the object; what it held is then held by the
caller. -/
theorem destroy (h : s.Counted (.object id :: os)) (hc : s.find? id = some c) (hr : c.refs ≤ 1)
    (b : Body) : (s.destroy id b).Counted (c.body.owned ++ os) where
  refs_eq j := by
    have h₁ := count_owned_destroy hc b (.object j)
    have h₂ := h.refs_eq j
    rw [List.count_append]
    by_cases hj : j = id
    · subst hj
      rw [refs_of_find? hc, List.count_cons_self] at h₂
      rw [refs_of_none (by simp [find?_destroy])]
      omega
    · rw [List.count_cons_of_ne (by simpa using Ne.symm hj)] at h₂
      have hf : (s.destroy id b).refs j = s.refs j := by simp [refs, find?_destroy, hj]
      omega
  refs_pos {j d} hd := by
    rw [find?_destroy] at hd
    split at hd
    · cases hd
    · exact h.refs_pos hd

/-- One of several handles to an object goes. -/
theorem detach (h : s.Counted (.object id :: os)) (hc : s.find? id = some c) (hr : ¬ c.refs ≤ 1) :
    (s.put id { c with refs := c.refs - 1 }).Counted os := by
  refine h.put hc (by simp only; omega) fun j => ?_
  by_cases hj : j = id
  · subst hj
    simp only [List.count_cons_self, if_true]
    omega
  · simp [hj, Ne.symm hj]

/-- A collection holds other handles than before, which the caller gave for those it held. -/
theorem setContents {x old : Contents} (h : s.Counted (x.owned ++ os)) (hc : s.find? id = some c)
    (hb : c.body = .collection old) : (s.setContents id x).Counted (old.owned ++ os) := by
  rw [setContents_eq_put hc]
  have hp : 0 < c.refs := h.refs_pos hc
  refine h.put hc hp fun j => ?_
  simp only [hb, Body.owned, List.count_append]
  omega

end Counted

end CountedObjects.Store
