import CountedObjects.Proofs.Store.Soundness
import Mathlib.Data.Fintype.Card
import Mathlib.Data.Set.Finite.Basic
import Mathlib.Logic.Relation
import Mathlib.Order.WellFounded

/-! Objects that outlive the release of all handles: those that own each other in a cycle and those
that such objects own. -/
namespace CountedObjects.Store

open Relation

/-- An object that can be reached, from owner to owned, from one that lies on a cycle. -/
def Retained (s : Store) (id : Nat) : Prop := ∃ j, TransGen s.Owns j j ∧ ReflTransGen s.Owns j id

variable {s t : Store} {i j id : Nat} {hs : List Handle}

theorem Owns.isLive (h : s.Owns i j) : s.IsLive i := by
  obtain ⟨c, hc, -⟩ := h
  exact ⟨c, hc⟩

/-- An object on a cycle is owned by one on the cycle, and one that it leads to by the one before
it. -/
theorem Retained.owner (h : s.Retained id) : ∃ i, s.Retained i ∧ s.Owns i id := by
  obtain ⟨j, hj, hr⟩ := h
  rcases ReflTransGen.cases_tail hr with rfl | ⟨i, hi, ho⟩
  · obtain ⟨i, hi, ho⟩ := TransGen.tail'_iff.mp hj
    exact ⟨i, ⟨id, hj, hi⟩, ho⟩
  · exact ⟨i, ⟨j, hj, hi⟩, ho⟩

theorem Retained.mono (hst : ∀ i j, s.Owns i j → t.Owns i j) (h : s.Retained id) :
    t.Retained id := by
  obtain ⟨j, hj, hr⟩ := h
  exact ⟨j, TransGen.mono hst j j hj, ReflTransGen.mono hst j id hr⟩

/-- Where every object has an owner, each can be traced back to a cycle, as there are no more than
finitely many. -/
theorem retained_of_forall_owner (h : ∀ j, s.IsLive j → ∃ i, s.Owns i j) (hid : s.IsLive id) :
    s.Retained id := by
  by_contra hn
  let α := {i // s.IsLive i ∧ ReflTransGen s.Owns i id}
  let r : α → α → Prop := fun a b => TransGen s.Owns a b
  have hfin : Finite α := by
    refine ((Set.finite_lt_nat s.cells.size).subset fun i hi => ?_).to_subtype
    exact (hi : s.IsLive i ∧ _).1.lt_size
  have htrans : IsTrans α r := ⟨fun _ _ _ hab hbc => hab.trans hbc⟩
  have hirrefl : Std.Irrefl r := ⟨fun a ha => hn ⟨a, ha, a.2.2⟩⟩
  have hwf : WellFounded r := Finite.wellFounded_of_trans_of_irrefl r
  obtain ⟨a, -, hmin⟩ := hwf.has_min Set.univ ⟨⟨id, hid, .refl⟩, trivial⟩
  obtain ⟨i, hi⟩ := h a a.2.1
  exact hmin ⟨i, hi.isLive, a.2.2.head hi⟩ trivial (.single hi)

/-- Survivors own what they owned. -/
theorem owns_of_releaseAll (h : (s.releaseAll hs).Owns i j) : s.Owns i j := by
  obtain ⟨d, hd, hj⟩ := h
  obtain ⟨c, hc, hcd⟩ := alike_of_releaseAll s hs i d hd
  exact ⟨c, hc, hcd.body ▸ hj⟩

/-- After a release of all handles that are held from outside, the objects that are left are those
that were retained, and they are retained still. -/
theorem Sound.isLive_releaseAll_iff (h : s.Sound hs) :
    ((s.releaseAll hs).IsLive id ↔ s.Retained id) ∧
      ((s.releaseAll hs).IsLive id ↔ (s.releaseAll hs).Retained id) := by
  have hr : (s.releaseAll hs).Sound [] := h.releaseAll_self
  have hback : (s.releaseAll hs).IsLive id → (s.releaseAll hs).Retained id :=
    retained_of_forall_owner fun j hj =>
      (hr.isLive_iff.mp hj).resolve_left List.not_mem_nil
  have hmono : (s.releaseAll hs).Retained id → s.Retained id :=
    .mono fun _ _ => owns_of_releaseAll
  have hn : s.Counted (hs ++ []) := by rw [List.append_nil]; exact h.toCounted
  have hkept : s.Retained id → (s.releaseAll hs).IsLive id :=
    hn.isLive_releaseAll s.Retained (fun _ hj => .inr hj.owner) id
  exact ⟨⟨hmono ∘ hback, hkept⟩, ⟨hback, hkept ∘ hmono⟩⟩

end CountedObjects.Store
