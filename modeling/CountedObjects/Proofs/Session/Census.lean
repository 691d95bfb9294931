import CountedObjects.Proofs.Registry
import CountedObjects.Session.Census

/-! The counts of references to descriptors. They depend on the objects, on what names descriptors
and on the descriptors that were built. -/
namespace CountedObjects

variable {α : Type}

/-- What is there in two lists of places is the same if it is in each place. -/
theorem filterMap_id_congr {xs ys : List (Option α)}
    (h : ∀ i : Nat, xs[i]?.join = ys[i]?.join) : xs.filterMap id = ys.filterMap id := by
  have nil_of_join : ∀ zs : List (Option α), (∀ i : Nat, zs[i]?.join = none) →
      zs.filterMap id = [] := by
    intro zs hz
    refine List.filterMap_eq_nil_iff.mpr fun z hm => ?_
    obtain ⟨i, hi⟩ := List.mem_iff_getElem?.mp hm
    simpa [hi] using hz i
  induction xs generalizing ys with
  | nil => exact (nil_of_join ys fun i => (h i).symm).symm
  | cons x xs ih =>
    cases ys with
    | nil => exact nil_of_join (x :: xs) h
    | cons y ys =>
      have hxy : x = y := h 0
      rw [List.filterMap_cons, List.filterMap_cons, hxy, ih fun i => h (i + 1)]

variable [BEq α] [LawfulBEq α]

theorem nodup_eraseDups (xs : List α) : xs.eraseDups.Nodup := by
  cases xs with
  | nil => exact .nil
  | cons x xs =>
    rw [List.eraseDups_cons, List.nodup_cons]
    refine ⟨fun hx => ?_, nodup_eraseDups (xs.filter fun y => !y == x)⟩
    simpa using (List.mem_filter.mp (List.mem_eraseDups.mp hx)).2
termination_by xs.length
decreasing_by exact Nat.lt_succ_of_le (List.length_filter_le _ _)

namespace Session

variable {s t : Session} {d e : Descriptor}

/-- The descriptors that the table lists in `t` and not in `s`. -/
def listedSince (s t : Session) : List Descriptor := s.realm.registry.added t.realm.registry

/-- Those among them that are new, each of which is one more reference to its base. -/
def built (s t : Session) : List Descriptor :=
  (s.listedSince t).eraseDups.filter fun e => !s.inUse.contains e

theorem mem_inUse : e ∈ s.inUse ↔ ∃ x ∈ s.descriptors, e ∈ x :: x.ancestors := by
  rw [inUse, List.mem_eraseDups, List.mem_append, List.mem_flatMap]
  constructor
  · rintro (he | ⟨x, hx, he⟩)
    · exact ⟨e, he, List.mem_cons_self ..⟩
    · exact ⟨x, hx, List.mem_cons_of_mem _ he⟩
  · rintro ⟨x, hx, he⟩
    rcases List.mem_cons.mp he with rfl | he
    · exact .inl hx
    · exact .inr ⟨x, hx, he⟩

theorem nodup_inUse (s : Session) : s.inUse.Nodup := nodup_eraseDups _

/-- The count of a descriptor depends on what refers to it and on what is in use. -/
theorem countP_inUse_congr (h : ∀ e, e ∈ t.inUse ↔ e ∈ s.inUse) (p : Descriptor → Bool) :
    t.inUse.countP p = s.inUse.countP p := by
  have hperm : t.inUse.Perm s.inUse :=
    (List.perm_ext_iff_of_nodup t.nodup_inUse s.nodup_inUse).mpr h
  exact hperm.countP_eq p

section

variable {ds : List Descriptor} (hx : s.realm.registry.Extends t.realm.registry)
  (hs : s.descriptors = s.realm.registry.listed ++ ds)
  (ht : t.descriptors = t.realm.registry.listed ++ ds)

include hx hs ht

end

end Session

end CountedObjects
