import CountedObjects.Proofs.Store.Equality
import CountedObjects.View

/-! What can be observed of an object stays as it is while the object lives. Its value or identity,
its text, its hash and the descriptor it reports do not depend on what collections hold. -/
namespace CountedObjects

theorem Cell.Becomes.reported {c d : Cell} (h : c.Becomes d) : d.reported = c.reported := by
  obtain ⟨ht, hb⟩ := h
  unfold Cell.reported
  generalize c.body = x at hb
  generalize d.body = y at hb
  cases hb with
  | refl => rw [ht]
  | contents => exact congrArg some ht

theorem mapM_congr {α β : Type} {f g : α → Result β} {xs : List α} (h : ∀ x ∈ xs, f x = g x) :
    xs.mapM f = xs.mapM g := by
  induction xs with
  | nil => rfl
  | cons x xs ih =>
    obtain ⟨hx, hxs⟩ := List.forall_mem_cons.mp h
    rw [List.mapM_cons, List.mapM_cons, hx, ih hxs]

namespace Store

variable {s t : Store} {os os' : List Handle} {a b : Handle} {id : Nat} {c d : Cell}

namespace Precedes

/-- An object that lives in both states has become in the later one what it is there. -/
theorem find?_of_isLive (h : s.Precedes t) (hs : s.IsLive id) (hd : t.find? id = some d) :
    ∃ c, s.find? id = some c ∧ c.Becomes d :=
  h.cell id d hs.lt_size hd

theorem shape_eq (h : s.Precedes t) (hs : s.Sound os) (ht : t.Sound os') (ha : s.Safe a)
    (ha' : t.Safe a) : t.shape a = s.shape a := by
  induction hn : a.rank using Nat.strongRecOn generalizing a with
  | _ n ih =>
  cases a with
  | null => rw [shape, shape]
  | type d => rw [shape, shape]
  | object id =>
    obtain ⟨d, hd⟩ := ha'.isLive
    obtain ⟨c, hc, hcd⟩ := h.find?_of_isLive ha.isLive hd
    rw [ht.ordered.shape_object hd, hs.ordered.shape_object hc, hcd.reported]
    have hb := hcd.body
    generalize hx : c.body = x at hb
    generalize hy : d.body = y at hb
    cases hb with
    | contents => rfl
    | refl =>
      cases x with
      | pair k v =>
        have hpair : s.body? (.object id) = some (.pair k v) := hx ▸ body?_object hc
        have hpair' : t.body? (.object id) = some (.pair k v) := hy ▸ body?_object hd
        have part_eq : ∀ x ∈ [k, v], t.shape x = s.shape x := by
          intro x hm
          have hrank : x.rank < n := by
            have := hs.ordered.rank_of_pair hpair x hm
            simp only [Handle.rank] at hn
            omega
          exact ih _ hrank (hs.safe_of_pair hpair x hm) (ht.safe_of_pair hpair' x hm) rfl
        simp only [part_eq k (by simp), part_eq v (by simp)]
      | _ => rfl

theorem token_eq (h : s.Precedes t) (hs : s.Sound os) (ht : t.Sound os') (ha : s.Safe a)
    (ha' : t.Safe a) : t.token a = s.token a := by
  rw [token, token, h.shape_eq hs ht ha ha']

theorem hashCode_eq (h : s.Precedes t) (hs : s.Sound os) (ht : t.Sound os') (ha : s.Safe a)
    (ha' : t.Safe a) : t.hashCode a = s.hashCode a := by
  rw [hashCode, hashCode, h.shape_eq hs ht ha ha']

theorem display_eq (h : s.Precedes t) (hs : s.Sound os) (ht : t.Sound os') (ha : s.Safe a)
    (ha' : t.Safe a) : t.display a = s.display a := by
  rw [display, display, h.shape_eq hs ht ha ha']

theorem equals_eq (h : s.Precedes t) (hs : s.Sound os) (ht : t.Sound os') (ha : s.Safe a)
    (ha' : t.Safe a) (hb : s.Safe b) (hb' : t.Safe b) : t.equals a b = s.equals a b := by
  rw [Bool.eq_iff_iff, ht.equals_iff ha' hb', hs.equals_iff ha hb, h.token_eq hs ht ha ha',
    h.token_eq hs ht hb hb']

theorem reportedType_eq (h : s.Precedes t) (ha : s.Safe a) (ha' : t.Safe a) :
    t.reportedType a = s.reportedType a := by
  cases a with
  | null => rfl
  | type d => exact congrArg (fun m => Except.ok (some m)) h.metatype
  | object id =>
    obtain ⟨d, hd⟩ := ha'.isLive
    obtain ⟨c, hc, hcd⟩ := h.find?_of_isLive ha.isLive hd
    rw [reportedType, reportedType, pointee?, pointee?, hc, hd]
    exact congrArg Except.ok hcd.reported

theorem typeName_eq (h : s.Precedes t) (ha : s.Safe a) (ha' : t.Safe a) :
    t.typeName a = s.typeName a := by
  rw [typeName, typeName, h.reportedType_eq ha ha']

theorem view_eq (h : s.Precedes t) (hs : s.Sound os) (ht : t.Sound os') (ha : s.Safe a)
    (ha' : t.Safe a) : t.view a = s.view a := by
  induction hn : a.rank using Nat.strongRecOn generalizing a with
  | _ n ih =>
  have htype := h.typeName_eq ha ha'
  cases a with
  | null => rw [view, view]
  | type d => rw [view, view, htype]
  | object id =>
    obtain ⟨d, hd⟩ := ha'.isLive
    obtain ⟨c, hc, hcd⟩ := h.find?_of_isLive ha.isLive hd
    rw [view, view, htype, h.display_eq hs ht ha ha', hc, hd]
    simp only [Option.map_some]
    have hb := hcd.body
    generalize hx : c.body = x at hb
    generalize hy : d.body = y at hb
    cases hb with
    | contents => rfl
    | refl =>
      cases x with
      | dyn type tag hs' =>
        have arguments_eq : ∀ x ∈ hs', (if x.rank ≤ id then t.view x else .ok .null) =
            if x.rank ≤ id then s.view x else .ok .null := by
          intro x hm
          split
          · next hrank =>
            have hsafe : s.Safe x := hs.safe_of_owned hc (hx ▸ hm)
            have hsafe' : t.Safe x := ht.safe_of_owned hd (hy ▸ hm)
            simp only [Handle.rank] at hn
            exact ih x.rank (by omega) hsafe hsafe' rfl
          · rfl
        simp only [mapM_congr arguments_eq]
      | _ => rfl

end Precedes

end Store

end CountedObjects
