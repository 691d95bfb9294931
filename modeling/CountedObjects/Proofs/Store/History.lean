import CountedObjects.Proofs.Store.Counting
import CountedObjects.Shape

/-! What a store keeps of its past: destroyed objects do not come back, the log of destructions
only grows, and objects that live on stay what they are. -/
namespace CountedObjects.Store

/-- An object is younger than the parts it was made with. -/
def Ordered (s : Store) : Prop :=
  ∀ id c, s.find? id = some c → ∀ h ∈ c.body.parts, h.rank ≤ id

/-- The numbers of the objects that were destroyed, in the order of their destruction. -/
def log (s : Store) : List Nat := s.destroyed.toList.map (·.1)

/-- The log names every object that was made and is not live, and names it once. -/
structure Recorded (s : Store) : Prop where
  nodup : s.log.Nodup
  mem_iff : ∀ id, id ∈ s.log ↔ id < s.cells.size ∧ ¬ s.IsLive id

/-- `t` is a later state of `s`. -/
structure Precedes (s t : Store) : Prop where
  metatype : t.metatype = s.metatype
  log : s.destroyed.toList <+: t.destroyed.toList
  size_le : s.cells.size ≤ t.cells.size
  cell : ∀ id d, id < s.cells.size → t.find? id = some d → ∃ c, s.find? id = some c ∧ c.Becomes d

/-- `t` is a later state of `s` in which all objects of `s` are as they were and new ones hold no
elements. -/
structure Grows (s t : Store) : Prop extends Precedes s t where
  keeps : ∀ id c, s.find? id = some c → ∃ d, t.find? id = some d ∧ c.Alike d
  bare : ∀ id d, s.cells.size ≤ id → t.find? id = some d → d.body.IsBare

/-- `t` is a later state of `s`. Of its objects, some are as they were, some are new and hold no
elements, and the others are as `changes` allows them to be. -/
structure Spares (changes : Nat → Body → Prop) (s t : Store) : Prop extends Precedes s t where
  spared : ∀ id d, t.find? id = some d → changes id d.body ∨
    (∃ c, s.find? id = some c ∧ c.Alike d) ∨ s.cells.size ≤ id ∧ d.body.IsBare

variable {s t u : Store} {id j : Nat} {c d : Cell} {hs os : List Handle}
  {changes : Nat → Body → Prop}

namespace Precedes

theorem refl (s : Store) : s.Precedes s where
  metatype := rfl
  log := List.prefix_rfl
  size_le := Nat.le_refl _
  cell _ d _ hd := ⟨d, hd, (Cell.Alike.refl d).becomes⟩

theorem trans (h : s.Precedes t) (h' : t.Precedes u) : s.Precedes u where
  metatype := h'.metatype.trans h.metatype
  log := h.log.trans h'.log
  size_le := Nat.le_trans h.size_le h'.size_le
  cell id e hlt he := by
    obtain ⟨d, hd, hde⟩ := h'.cell id e (Nat.lt_of_lt_of_le hlt h.size_le) he
    obtain ⟨c, hc, hcd⟩ := h.cell id d hlt hd
    exact ⟨c, hc, hcd.trans hde⟩

theorem put (hc : s.find? id = some c) (hd : c.Becomes d) : s.Precedes (s.put id d) where
  metatype := rfl
  log := List.prefix_rfl
  size_le := by simp [Store.put]
  cell j e _ he := by
    rw [find?_put hc] at he
    split at he
    · next hj =>
      cases he
      exact ⟨c, hj ▸ hc, hd⟩
    · exact ⟨e, he, (Cell.Alike.refl e).becomes⟩

theorem destroy (s : Store) (id : Nat) (b : Body) : s.Precedes (s.destroy id b) where
  metatype := rfl
  log := by simp [Store.destroy]
  size_le := by simp [Store.destroy]
  cell j e _ he := by
    rw [find?_destroy] at he
    split at he
    · cases he
    · exact ⟨e, he, (Cell.Alike.refl e).becomes⟩

theorem push (s : Store) (c : Cell) : s.Precedes (s.push c) where
  metatype := rfl
  log := List.prefix_rfl
  size_le := by simp [Store.push]
  cell j e hlt he := by
    rw [find?_push, if_neg (Nat.ne_of_lt hlt)] at he
    exact ⟨e, he, (Cell.Alike.refl e).becomes⟩

end Precedes

namespace Grows

theorem refl (s : Store) : s.Grows s where
  toPrecedes := .refl s
  keeps _ c hc := ⟨c, hc, .refl c⟩
  bare _ _ hge hd := absurd (lt_size_of_find? hd) (Nat.not_lt.mpr hge)

theorem trans (h : s.Grows t) (h' : t.Grows u) : s.Grows u where
  toPrecedes := h.toPrecedes.trans h'.toPrecedes
  keeps id c hc := by
    obtain ⟨d, hd, hcd⟩ := h.keeps id c hc
    obtain ⟨e, he, hde⟩ := h'.keeps id d hd
    exact ⟨e, he, hcd.trans hde⟩
  bare id e hge he := by
    by_cases hlt : id < t.cells.size
    · obtain ⟨d, hd, -⟩ := h'.cell id e hlt he
      obtain ⟨e', he', hde⟩ := h'.keeps id d hd
      cases he.symm.trans he'
      rw [hde.body]
      exact h.bare id d hge hd
    · exact h'.bare id e (Nat.le_of_not_lt hlt) he

theorem put (hc : s.find? id = some c) (hd : c.Alike d) : s.Grows (s.put id d) where
  toPrecedes := .put hc hd.becomes
  keeps j e he := by
    rw [find?_put hc]
    by_cases hj : j = id
    · subst hj
      cases hc.symm.trans he
      exact ⟨d, if_pos rfl, hd⟩
    · exact ⟨e, by rw [if_neg hj, he], .refl e⟩
  bare j e hge he := by
    have hlt := lt_size_of_find? he
    simp only [Store.put, Array.size_setIfInBounds] at hlt
    omega

theorem push (s : Store) (hb : c.body.IsBare) : s.Grows (s.push c) where
  toPrecedes := .push s c
  keeps j e he := by
    have hlt := lt_size_of_find? he
    exact ⟨e, by rw [find?_push, if_neg (Nat.ne_of_lt hlt), he], .refl e⟩
  bare j e hge he := by
    rw [find?_push] at he
    split at he
    · cases he
      exact hb
    · exact absurd (lt_size_of_find? he) (Nat.not_lt.mpr hge)

theorem attach (s : Store) (h : Handle) : s.Grows (s.attach h) := by
  cases h with
  | null => exact .refl s
  | type d => exact .refl s
  | object id =>
    cases hc : s.find? id with
    | none => simpa [Store.attach, hc] using Grows.refl s
    | some c =>
      rw [attach_object hc]
      exact .put hc ⟨rfl, rfl⟩

theorem attachAll (s : Store) (hs : List Handle) : s.Grows (s.attachAll hs) := by
  induction hs generalizing s with
  | nil => exact .refl s
  | cons h hs ih => exact (Grows.attach s h).trans (ih (s.attach h))

theorem alloc (s : Store) (d : Descriptor) {b : Body} (hb : b.IsBare) : s.Grows (s.alloc d b).2 :=
  (Grows.attachAll s b.owned).trans (.push _ hb)

theorem isLive (h : s.Grows t) (hl : s.IsLive id) : t.IsLive id := by
  obtain ⟨c, hc⟩ := hl
  obtain ⟨d, hd, -⟩ := h.keeps id c hc
  exact ⟨d, hd⟩

theorem safe (h : s.Grows t) {x : Handle} (hx : s.Safe x) : t.Safe x :=
  fun id e => h.isLive (hx id e)

theorem body? (h : s.Grows t) {x : Handle} {b : Body} (hb : s.body? x = some b) :
    t.body? x = some b := by
  cases x with
  | null => cases hb
  | type d => cases hb
  | object id =>
    obtain ⟨c, hc, rfl⟩ := Option.map_eq_some_iff.mp hb
    obtain ⟨d, hd, hcd⟩ := h.keeps id c hc
    exact Option.map_eq_some_iff.mpr ⟨d, hd, hcd.body⟩

theorem contents? (h : s.Grows t) {x : Handle} {b : Contents} (hb : s.contents? x = some b) :
    t.contents? x = some b := by
  unfold Store.contents? at hb ⊢
  split at hb
  · next c hc =>
    cases hb
    rw [h.body? hc]
  · cases hb

theorem spares (h : s.Grows t) : s.Spares changes t where
  toPrecedes := h.toPrecedes
  spared id d hd := by
    by_cases hlt : id < s.cells.size
    · obtain ⟨c, hc, -⟩ := h.cell id d hlt hd
      obtain ⟨d', hd', hcd⟩ := h.keeps id c hc
      cases hd.symm.trans hd'
      exact .inr (.inl ⟨c, hc, hcd⟩)
    · have hge : s.cells.size ≤ id := Nat.le_of_not_lt hlt
      exact .inr (.inr ⟨hge, h.bare id d hge hd⟩)

end Grows

namespace Spares

theorem refl (s : Store) : s.Spares changes s := (Grows.refl s).spares

theorem trans (h : s.Spares changes t) (h' : t.Spares changes u) : s.Spares changes u where
  toPrecedes := h.toPrecedes.trans h'.toPrecedes
  spared id e he := by
    rcases h'.spared id e he with hw | ⟨d, hd, hde⟩ | ⟨hge, hb⟩
    · exact .inl hw
    · rcases h.spared id d hd with hw | ⟨c, hc, hcd⟩ | ⟨hge, hb⟩
      · exact .inl (hde.body ▸ hw)
      · exact .inr (.inl ⟨c, hc, hcd.trans hde⟩)
      · exact .inr (.inr ⟨hge, hde.body ▸ hb⟩)
    · exact .inr (.inr ⟨Nat.le_trans h.size_le hge, hb⟩)

theorem put (hc : s.find? id = some c) (hd : c.Becomes d) (hw : changes id d.body) :
    s.Spares changes (s.put id d) where
  toPrecedes := .put hc hd
  spared j e he := by
    rw [find?_put hc] at he
    split at he
    · next hj =>
      cases he
      exact .inl (hj ▸ hw)
    · exact .inr (.inl ⟨e, he, .refl e⟩)

theorem push (s : Store) (hw : changes s.cells.size c.body) : s.Spares changes (s.push c) where
  toPrecedes := .push s c
  spared j e he := by
    rw [find?_push] at he
    split at he
    · next hj =>
      cases he
      exact .inl (hj ▸ hw)
    · exact .inr (.inl ⟨e, he, .refl e⟩)

/-- A new object may be any that is allowed. -/
theorem alloc (s : Store) (d : Descriptor) {b : Body}
    (hw : ∀ id, s.cells.size ≤ id → changes id b) : s.Spares changes (s.alloc d b).2 :=
  have ha := Grows.attachAll s b.owned
  ha.spares.trans (.push _ (hw _ ha.size_le))

end Spares

namespace Recorded

theorem put (h : s.Recorded) (hc : s.find? id = some c) (d : Cell) : (s.put id d).Recorded where
  nodup := h.nodup
  mem_iff j := by
    have hl : (s.put id d).IsLive j ↔ s.IsLive j := by
      simp only [IsLive, find?_put hc]
      by_cases hj : j = id <;> simp [hj, hc]
    have hs : (s.put id d).cells.size = s.cells.size := by simp [Store.put]
    rw [hl, hs]
    exact h.mem_iff j

theorem destroy (h : s.Recorded) (hc : s.find? id = some c) (b : Body) :
    (s.destroy id b).Recorded := by
  have hlog : (s.destroy id b).log = s.log ++ [id] := by simp [Store.log, Store.destroy]
  have hn : id ∉ s.log := fun hm => ((h.mem_iff id).mp hm).2 ⟨c, hc⟩
  refine ⟨?_, fun j => ?_⟩
  · rw [hlog, List.nodup_append]
    refine ⟨h.nodup, by simp, ?_⟩
    rintro a ha b hb rfl
    exact hn (List.mem_singleton.mp hb ▸ ha)
  · have hl : (s.destroy id b).IsLive j ↔ j ≠ id ∧ s.IsLive j := by
      simp only [IsLive, find?_destroy]
      by_cases hj : j = id <;> simp [hj]
    have hs : (s.destroy id b).cells.size = s.cells.size := by simp [Store.destroy]
    rw [hlog, hl, hs, List.mem_append, h.mem_iff, List.mem_singleton]
    have hlt := lt_size_of_find? hc
    by_cases hj : j = id
    · simp [hj, hlt]
    · simp [hj]

theorem push (h : s.Recorded) (c : Cell) : (s.push c).Recorded where
  nodup := h.nodup
  mem_iff j := by
    have hl : (s.push c).IsLive j ↔ j = s.cells.size ∨ s.IsLive j := by
      simp only [IsLive, find?_push]
      by_cases hj : j = s.cells.size <;> simp [hj]
    have hs : (s.push c).cells.size = s.cells.size + 1 := by simp [Store.push]
    have hlog : (s.push c).log = s.log := rfl
    rw [hl, hs, hlog, h.mem_iff]
    constructor
    · intro hj
      rcases hj with ⟨hlt, hn⟩
      have hne : j ≠ s.cells.size := Nat.ne_of_lt hlt
      exact ⟨by omega, not_or.mpr ⟨hne, hn⟩⟩
    · intro hj
      rcases hj with ⟨hlt, hn⟩
      obtain ⟨hne, hn⟩ := not_or.mp hn
      exact ⟨by omega, hn⟩

end Recorded

namespace Ordered

theorem put (h : s.Ordered) (hc : s.find? id = some c) (hd : c.Becomes d) :
    (s.put id d).Ordered := by
  intro j e he x hx
  rw [find?_put hc] at he
  split at he
  · next hj =>
    cases he
    rw [hd.body.parts] at hx
    exact hj ▸ h id c hc x hx
  · exact h j e he x hx

theorem destroy (h : s.Ordered) (id : Nat) (b : Body) : (s.destroy id b).Ordered := by
  intro j e he
  rw [find?_destroy] at he
  split at he
  · cases he
  · exact h j e he

theorem push (h : s.Ordered) (hc : ∀ x ∈ c.body.parts, s.Safe x) : (s.push c).Ordered := by
  intro j e he x hx
  rw [find?_push] at he
  split at he
  · next hj =>
    cases he
    cases x with
    | null => exact Nat.zero_le _
    | type d => exact Nat.zero_le _
    | object i => exact hj ▸ (hc _ hx).isLive.lt_size
  · exact h j e he x hx

end Ordered

end CountedObjects.Store
