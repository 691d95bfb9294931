import CountedObjects.Proofs.Session.Run
import CountedObjects.Proofs.Store.Cycles

/-! What is left of a session at its end. -/
namespace CountedObjects

namespace Store

variable {s : Store} {id : Nat} {os : List Handle}

/-- An object that was made is either live or destroyed, in which case it was destroyed once. -/
theorem Sound.count_log (h : s.Sound os) (hid : id < s.cells.size) :
    (s.IsLive id → s.log.count id = 0) ∧ (¬ s.IsLive id → s.log.count id = 1) := by
  constructor
  · exact fun hl => List.count_eq_zero.mpr fun hm => ((h.mem_iff id).mp hm).2 hl
  · exact fun hd => List.count_eq_one_of_mem h.nodup ((h.mem_iff id).mpr ⟨hid, hd⟩)

end Store

namespace Session

theorem size_close (s : Session) : s.close.store.cells.size = s.store.cells.size :=
  Store.size_releaseAll _ _

/-- When all names and enumerators are dropped after any steps, the objects that stay are those that
a cycle of owners leads to, with owners as they were before or as they are then. Each other object
that was made has been destroyed once. -/
theorem run_close_isLive_iff (steps : List Step) (id : Nat) :
    let s := (start.advanceAll steps).2
    (s.close.store.IsLive id ↔ s.store.Retained id) ∧
      (s.close.store.IsLive id ↔ s.close.store.Retained id) ∧
        (id < s.store.cells.size →
          s.close.store.log.count id = 0 ∧ s.store.Retained id ∨
            s.close.store.log.count id = 1 ∧ ¬ s.store.Retained id) := by
  intro s
  have hs : s.Sound := (run_settled steps).sound
  obtain ⟨hbefore, hafter⟩ :
      (s.close.store.IsLive id ↔ s.store.Retained id) ∧
        (s.close.store.IsLive id ↔ s.close.store.Retained id) :=
    Store.Sound.isLive_releaseAll_iff hs
  refine ⟨hbefore, hafter, fun hid => ?_⟩
  obtain ⟨hlive, hdead⟩ := (close_sound hs).count_log (s.size_close ▸ hid)
  by_cases hr : s.store.Retained id
  · exact .inl ⟨hlive (hbefore.mpr hr), hr⟩
  · exact .inr ⟨hdead fun hl => hr (hbefore.mp hl), hr⟩

end Session

end CountedObjects
