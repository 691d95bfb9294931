import CountedObjects.Proofs.Session.Run
import CountedObjects.Session.Census

/-! Owners of objects between steps. A session counts the owners of each object and destroys it in
the step that takes away the last one. -/
namespace CountedObjects.Session

variable {s t : Session} {id : Nat}

/-- The handles that names, open enumerators and objects hold, each as often as it is held. -/
def owners (s : Session) : List Handle :=
  s.handles.map (·.2) ++ s.enumerators.flatMap (·.2.items) ++ s.cells.flatMap (·.body.owned)

/-- An object is live exactly if it has an owner, and it has as many references as owners. None of
them refers to a destroyed object, and no object was destroyed twice. -/
structure Accounted (s : Session) : Prop where
  isLive_iff : ∀ id, s.store.IsLive id ↔ .object id ∈ s.owners
  refs_eq : ∀ id, s.refs (.object id) = s.owners.count (.object id)
  not_mem_owners : ∀ id ∈ s.store.log, .object id ∉ s.owners
  nodup : s.store.log.Nodup

/-- On the way from `s` to `t` those objects are destroyed that had an owner or are new and have no
owner left, each of them once, and no others. -/
def DestroysUnowned (s t : Session) : Prop :=
  ∃ ids, t.store.log = s.store.log ++ ids ∧ ids.Nodup ∧ ∀ id, id ∈ ids ↔
    (.object id ∈ s.owners ∨ s.store.cells.size ≤ id ∧ id < t.store.cells.size) ∧
      .object id ∉ t.owners

theorem cells_owned (s : Session) : s.cells.flatMap (·.body.owned) = s.store.owned := by
  rw [cells, Store.owned]
  induction s.store.cells.toList with
  | nil => rfl
  | cons x xs ih =>
    cases x with
    | none => exact ih
    | some c => exact congrArg (c.body.owned ++ ·) ih

theorem Settled.owners_eq (h : s.Settled) : s.owners = s.roots ++ s.store.owned := by
  rw [owners, cells_owned, roots, h.held, List.append_nil]

namespace Settled

theorem isLive_iff (h : s.Settled) : s.store.IsLive id ↔ .object id ∈ s.owners := by
  rw [h.owners_eq, List.mem_append, Store.object_mem_owned]
  exact h.sound.isLive_iff

theorem accounted (h : s.Settled) : s.Accounted where
  isLive_iff _ := h.isLive_iff
  refs_eq id := by
    rw [h.owners_eq, List.count_append]
    exact h.sound.refs_eq id
  not_mem_owners id hm := fun ho => ((h.sound.mem_iff id).mp hm).2 (h.isLive_iff.mpr ho)
  nodup := h.sound.nodup

/-- The log of `t` adds those numbers to the log of `s` that were not on it. -/
theorem destroysUnowned (hs : s.Settled) (ht : t.Settled) (hst : s.store.Precedes t.store) :
    s.DestroysUnowned t := by
  obtain ⟨ids, hids⟩ := hst.log
  have hlog : t.store.log = s.store.log ++ ids.map (·.1) := by
    rw [Store.log, ← hids, List.map_append, Store.log]
  have hn : (s.store.log ++ ids.map (·.1)).Nodup := hlog ▸ ht.sound.nodup
  obtain ⟨-, hnodup, hdisjoint⟩ := List.nodup_append.mp hn
  refine ⟨ids.map (·.1), hlog, hnodup, fun id => ?_⟩
  have hs_iff := hs.sound.mem_iff id
  have ht_iff := ht.sound.mem_iff id
  rw [← hs.isLive_iff, ← ht.isLive_iff]
  constructor
  · intro hm
    obtain ⟨hlt, hdead⟩ := ht_iff.mp (hlog ▸ List.mem_append_right _ hm)
    have hnew : id ∉ s.store.log := fun hold => hdisjoint id hold id hm rfl
    refine ⟨?_, hdead⟩
    by_cases hold : id < s.store.cells.size
    · exact .inl (Classical.not_not.mp fun hd => hnew (hs_iff.mpr ⟨hold, hd⟩))
    · exact .inr ⟨Nat.le_of_not_lt hold, hlt⟩
  · intro hd
    rcases hd with ⟨hold, hdead⟩
    have hlt : id < t.store.cells.size :=
      hold.elim (fun hl => Nat.lt_of_lt_of_le hl.lt_size hst.size_le) And.right
    have hm : id ∈ s.store.log ++ ids.map (·.1) := hlog ▸ ht_iff.mpr ⟨hlt, hdead⟩
    refine (List.mem_append.mp hm).resolve_left fun hm => ?_
    obtain ⟨hlt, hd⟩ := hs_iff.mp hm
    exact hold.elim hd fun hge => absurd hlt (Nat.not_lt.mpr hge.1)

end Settled

theorem close_settled (h : s.Settled) : s.close.Settled := ⟨close_sound h.sound, rfl⟩

theorem precedes_close (s : Session) : s.store.Precedes s.close.store :=
  Store.precedes_releaseAll _ _

/-- After any steps, in the next step and at the end. -/
theorem run_accounted (steps : List Step) :
    let s := (start.advanceAll steps).2
    s.Accounted ∧ (∀ step, s.DestroysUnowned (s.advance step).2) ∧
      s.close.Accounted ∧ s.DestroysUnowned s.close := by
  intro s
  have hs : s.Settled := run_settled steps
  have hc : s.close.Settled := close_settled hs
  refine ⟨hs.accounted, fun step => ?_, hc.accounted, hs.destroysUnowned hc (precedes_close s)⟩
  obtain ⟨ht, hp⟩ := advance_settled hs step
  exact hs.destroysUnowned ht hp

end CountedObjects.Session
