import CountedObjects.Proofs.Store.History

/-! Sound stores: counted, with parts older than what they are parts of and with every destruction
on record. All operations on stores keep them sound, and a release destroys no more objects than
those that nothing holds any longer. -/
namespace CountedObjects.Store

structure Sound (s : Store) (owners : List Handle) : Prop extends Counted s owners, Recorded s where
  ordered : s.Ordered

variable {s t : Store} {id j : Nat} {c d : Cell} {hs os : List Handle}

theorem empty_sound (metatype : Descriptor) : (empty metatype).Sound [] where
  refs_eq id := by simp [refs, find?, empty, owned]
  refs_pos h := by simp [find?, empty] at h
  nodup := by simp [log, empty]
  mem_iff id := by simp [log, empty]
  ordered id c h := by simp [find?, empty] at h

theorem precedes_releaseAll (s : Store) (hs : List Handle) : s.Precedes (s.releaseAll hs) := by
  fun_induction releaseAll s hs with
  | case1 s => exact .refl s
  | case2 s hs ih => exact ih
  | case3 s d hs ih => exact ih
  | case4 s id hs hn ih => exact ih
  | case5 s id hs c hc hr ih => exact (Precedes.destroy s id c.body).trans ih
  | case6 s id hs c hc hr ih =>
    exact (Precedes.put (d := { c with refs := c.refs - 1 }) hc ⟨rfl, .refl _⟩).trans ih

theorem size_releaseAll (s : Store) (hs : List Handle) :
    (s.releaseAll hs).cells.size = s.cells.size := by
  fun_induction releaseAll s hs with
  | case1 s => rfl
  | case2 s hs ih => exact ih
  | case3 s d hs ih => exact ih
  | case4 s id hs hn ih => exact ih
  | case5 s id hs c hc hr ih => simpa [destroy] using ih
  | case6 s id hs c hc hr ih => simpa [put] using ih

theorem size_attach (s : Store) (h : Handle) : (s.attach h).cells.size = s.cells.size := by
  cases h with
  | null | type => rfl
  | object id =>
    cases hc : s.find? id with
    | none => simp [attach, hc]
    | some c => simp [attach_object hc, put]

theorem size_attachAll (s : Store) (hs : List Handle) :
    (s.attachAll hs).cells.size = s.cells.size := by
  induction hs generalizing s with
  | nil => rfl
  | cons h hs ih => exact (ih (s.attach h)).trans (size_attach s h)

theorem size_replace (s : Store) (id : Nat) (c : Contents) :
    (s.replace id c).cells.size = s.cells.size := by
  unfold replace
  split
  · rfl
  · split
    · rw [size_releaseAll, setContents, Array.size_modify, size_attachAll]
    · rfl

/-- Objects that survive a release keep their state. -/
theorem alike_of_releaseAll (s : Store) (hs : List Handle) :
    ∀ id d, (s.releaseAll hs).find? id = some d → ∃ c, s.find? id = some c ∧ c.Alike d := by
  fun_induction releaseAll s hs with
  | case1 s => exact fun id d hd => ⟨d, hd, .refl d⟩
  | case2 s hs ih => exact ih
  | case3 s d hs ih => exact ih
  | case4 s id hs hn ih => exact ih
  | case5 s id hs c hc hr ih =>
    intro j e he
    obtain ⟨d, hd, hde⟩ := ih j e he
    rw [find?_destroy] at hd
    split at hd
    · cases hd
    · exact ⟨d, hd, hde⟩
  | case6 s id hs c hc hr ih =>
    intro j e he
    obtain ⟨d, hd, hde⟩ := ih j e he
    rw [find?_put hc] at hd
    split at hd
    · next hj =>
      cases hd
      exact ⟨c, hj ▸ hc, hde.type, hde.body⟩
    · exact ⟨d, hd, hde⟩

theorem Spares.releaseAll {changes : Nat → Body → Prop} (s : Store) (hs : List Handle) :
    s.Spares changes (s.releaseAll hs) where
  toPrecedes := precedes_releaseAll s hs
  spared id d hd := .inr (.inl (alike_of_releaseAll s hs id d hd))

/-- A release that destroys nothing changes nothing but the number of handles. -/
theorem grows_releaseAll_of_isLive (h : ∀ id, s.IsLive id → (s.releaseAll hs).IsLive id) :
    s.Grows (s.releaseAll hs) where
  toPrecedes := precedes_releaseAll s hs
  keeps id c hc := by
    obtain ⟨d, hd⟩ := h id ⟨c, hc⟩
    obtain ⟨c', hc', hcd⟩ := alike_of_releaseAll s hs id d hd
    cases hc.symm.trans hc'
    exact ⟨d, hd, hcd⟩
  bare id d hge hd := by
    have hlt := lt_size_of_find? hd
    rw [size_releaseAll] at hlt
    omega

namespace Counted

/-- A set of objects each of which has an owner, or is held by one of the set, outlives a release
of handles that are held besides. -/
theorem isLive_releaseAll (h : s.Counted (hs ++ os)) (X : Nat → Prop)
    (hX : ∀ id, X id → .object id ∈ os ∨ ∃ i, X i ∧ s.Owns i id) :
    ∀ id, X id → (s.releaseAll hs).IsLive id := by
  fun_induction releaseAll s hs with
  | case1 s =>
    intro id hid
    have hor : .object id ∈ os ∨ ∃ i, s.Owns i id := by
      rcases hX id hid with ho | ⟨i, -, ho⟩
      · exact .inl ho
      · exact .inr ⟨i, ho⟩
    exact h.isLive_iff.mpr hor
  | case2 s hs ih => exact ih (h.congr fun j => by simp) hX
  | case3 s d hs ih => exact ih (h.congr fun j => by simp) hX
  | case4 s id hs hn ih =>
    exact absurd hn (Option.ne_none_iff_exists'.mpr (h.isLive_of_mem (by simp)))
  | case5 s id hs c hc hr ih =>
    -- The handle that is released is the only one to the object, which is thus not of the set.
    have hcount : os.count (.object id) = 0 ∧ s.owned.count (.object id) = 0 := by
      have := h.refs_eq id
      rw [refs_of_find? hc, List.cons_append, List.count_cons_self, List.count_append] at this
      omega
    have hid : ¬ X id := by
      intro hx
      rcases hX id hx with ho | ⟨i, -, ho⟩
      · exact List.count_eq_zero.mp hcount.1 ho
      · exact List.count_eq_zero.mp hcount.2 (object_mem_owned.mpr ⟨i, ho⟩)
    apply ih ((h.destroy hc hr c.body).congr fun j => by simp)
    intro j hj
    rcases hX j hj with ho | ⟨i, hi, d, hd, hm⟩
    · exact .inl ho
    · have hne : i ≠ id := fun e => hid (e ▸ hi)
      have hd' : (s.destroy id c.body).find? i = some d := by rw [find?_destroy, if_neg hne, hd]
      exact .inr ⟨i, hi, d, hd', hm⟩
  | case6 s id hs c hc hr ih =>
    apply ih (h.detach hc hr)
    intro j hj
    rcases hX j hj with ho | ⟨i, hi, d, hd, hm⟩
    · exact .inl ho
    · by_cases he : i = id
      · subst he
        cases hc.symm.trans hd
        exact .inr ⟨i, hi, { c with refs := c.refs - 1 }, by rw [find?_put hc, if_pos rfl], hm⟩
      · exact .inr ⟨i, hi, d, by rw [find?_put hc, if_neg he, hd], hm⟩

/-- To release a handle to an object takes one from the count of its references. -/
theorem refs_releaseAll_singleton {id : Nat} (h : s.Counted (.object id :: os)) :
    (s.releaseAll [.object id]).refs id + 1 = s.refs id := by
  obtain ⟨c, hc⟩ := h.isLive_of_mem (List.mem_cons_self ..)
  have hpos := h.refs_pos hc
  rw [refs_of_find? hc]
  unfold releaseAll
  split
  · next hn => cases hn.symm.trans hc
  · next c' hc' =>
    cases hc'.symm.trans hc
    split
    · have hdead : ((s.destroy id c.body).releaseAll (c.body.owned ++ [])).find? id = none := by
        refine Option.eq_none_iff_forall_ne_some.mpr fun d hd => ?_
        obtain ⟨b, hb, -⟩ := alike_of_releaseAll _ _ id d hd
        rw [find?_destroy, if_pos rfl] at hb
        cases hb
      rw [refs_of_none hdead]
      omega
    · rw [releaseAll, refs_of_find? (by rw [find?_put hc, if_pos rfl])]
      exact Nat.sub_add_cancel hpos

end Counted

namespace Sound

theorem congr {os' : List Handle} (h : s.Sound os)
    (ho : ∀ id, os'.count (.object id) = os.count (.object id)) : s.Sound os' :=
  ⟨h.toCounted.congr ho, h.toRecorded, h.ordered⟩

theorem attach (h : s.Sound os) {x : Handle} (hx : s.Safe x) : (s.attach x).Sound (x :: os) := by
  have hn := h.toCounted.attach hx
  cases x with
  | null => exact ⟨hn, h.toRecorded, h.ordered⟩
  | type d => exact ⟨hn, h.toRecorded, h.ordered⟩
  | object id =>
    obtain ⟨c, hc⟩ := hx.isLive
    rw [attach_object hc] at hn ⊢
    exact ⟨hn, h.toRecorded.put hc _, h.ordered.put hc ⟨rfl, .refl _⟩⟩

theorem attachAll (h : s.Sound os) (hx : s.SafeAll hs) : (s.attachAll hs).Sound (hs ++ os) := by
  induction hs generalizing s os with
  | nil => exact h
  | cons x hs ih =>
    have ha : (s.attach x).Sound (x :: os) := h.attach (hx x (List.mem_cons_self ..))
    have hr : (s.attach x).SafeAll hs :=
      fun y hy => (Grows.attach s x).safe (hx y (List.mem_cons_of_mem _ hy))
    refine (ih ha hr).congr fun id => ?_
    simp only [List.count_append, List.count_cons]
    omega

theorem alloc (h : s.Sound os) {b : Body} (hb : s.SafeAll b.owned) (d : Descriptor) :
    (s.alloc d b).2.Sound (.object (s.alloc d b).1 :: os) := by
  have ha : (s.attachAll b.owned).Sound (b.owned ++ os) := h.attachAll hb
  have hp : ∀ x ∈ b.parts, (s.attachAll b.owned).Safe x :=
    fun x hx => (Grows.attachAll s b.owned).safe (hb x (Body.mem_owned_of_mem_parts hx))
  exact ⟨Counted.push (c := ⟨d, 1, b⟩) ha.toCounted rfl, ha.toRecorded.push _, ha.ordered.push hp⟩

theorem releaseAll (h : s.Sound (hs ++ os)) : (s.releaseAll hs).Sound os := by
  fun_induction Store.releaseAll s hs with
  | case1 s => exact h
  | case2 s hs ih => exact ih (h.congr fun j => by simp)
  | case3 s d hs ih => exact ih (h.congr fun j => by simp)
  | case4 s id hs hn ih =>
    exact absurd hn (Option.ne_none_iff_exists'.mpr (h.isLive_of_mem (by simp)))
  | case5 s id hs c hc hr ih =>
    have hn : (s.destroy id c.body).Counted (c.body.owned ++ (hs ++ os)) :=
      h.toCounted.destroy hc hr c.body
    exact ih ⟨hn.congr fun j => by simp, h.toRecorded.destroy hc _, h.ordered.destroy id _⟩
  | case6 s id hs c hc hr ih =>
    exact ih ⟨h.toCounted.detach hc hr, h.toRecorded.put hc _, h.ordered.put hc ⟨rfl, .refl _⟩⟩

theorem releaseAll_self (h : s.Sound hs) : (s.releaseAll hs).Sound [] := by
  refine releaseAll ?_
  rwa [List.append_nil]

/-- A release of handles to objects that others hold besides leaves all objects in place. -/
theorem grows_releaseAll (h : s.Sound (hs ++ os))
    (hx : ∀ id, .object id ∈ hs → .object id ∈ os ∨ ∃ i, s.Owns i id) :
    s.Grows (s.releaseAll hs) := by
  apply grows_releaseAll_of_isLive
  apply h.isLive_releaseAll
  intro j hj
  have hj : .object j ∈ os ∨ ∃ i, s.Owns i j := by
    rcases h.isLive_iff.mp hj with hm | ho
    · exact (List.mem_append.mp hm).elim (hx j) .inl
    · exact .inr ho
  rcases hj with hm | ⟨i, d, hd, hm⟩
  · exact .inl hm
  · exact .inr ⟨i, ⟨d, hd⟩, d, hd, hm⟩

end Sound

theorem contents?_object {x : Contents} :
    s.contents? (.object id) = some x ↔ ∃ c, s.find? id = some c ∧ c.body = .collection x := by
  simp only [contents?, body?]
  cases s.find? id with
  | none => simp
  | some c => cases hb : c.body <;> simp [hb]

/-- A collection holds what it held if it was not changed and lives. -/
theorem Spares.contents?_of_isLive {x : Contents} (h : s.Spares (fun _ _ => False) t)
    (hc : s.contents? (.object id) = some x) (hl : t.IsLive id) :
    t.contents? (.object id) = some x := by
  obtain ⟨d, hd⟩ := hl
  obtain ⟨b, hb, hbc⟩ := contents?_object.mp hc
  rcases h.spared id d hd with hw | ⟨b', hb', hbd⟩ | ⟨hge, -⟩
  · exact hw.elim
  · cases hb.symm.trans hb'
    exact contents?_object.mpr ⟨d, hd, hbd.body.trans hbc⟩
  · exact absurd (lt_size_of_find? hb) (Nat.not_lt.mpr hge)

/-- A replacement in three steps: what the collection is to hold is attached, the contents change,
and what it held is released. -/
theorem replace_eq {old x : Contents} (ho : s.contents? (.object id) = some old)
    (hk : old.kind = x.kind) :
    s.replace id x = ((s.attachAll x.owned).setContents id x).releaseAll old.owned := by
  rw [replace, ho]
  exact if_pos hk

theorem replace_of_none (x : Contents) (ho : s.contents? (.object id) = none) :
    s.replace id x = s := by
  rw [replace, ho]

theorem replace_of_kind_ne {old x : Contents} (ho : s.contents? (.object id) = some old)
    (hk : old.kind ≠ x.kind) : s.replace id x = s := by
  rw [replace, ho]
  exact if_neg hk

theorem becomes_of_kind {old x : Contents} (hb : c.body = .collection old)
    (hk : old.kind = x.kind) : c.Becomes { c with body := .collection x } :=
  ⟨rfl, by rw [hb]; exact .contents hk.symm⟩

/-- A replacement changes nothing but what the collection holds. -/
theorem Spares.replace {changes : Nat → Body → Prop} (s : Store) {x : Contents}
    (hw : changes id (.collection x)) : s.Spares changes (s.replace id x) := by
  cases ho : s.contents? (.object id) with
  | none =>
    rw [replace_of_none x ho]
    exact .refl s
  | some old =>
    by_cases hk : old.kind = x.kind
    · have hg : s.Grows (s.attachAll x.owned) := .attachAll s x.owned
      obtain ⟨c, hc, hb⟩ := contents?_object.mp (hg.contents? ho)
      rw [replace_eq ho hk, setContents_eq_put hc]
      have hput := Spares.put (d := { c with body := .collection x }) hc (becomes_of_kind hb hk) hw
      exact hg.spares.trans (hput.trans (.releaseAll _ _))
    · rw [replace_of_kind_ne ho hk]
      exact .refl s

namespace Sound

/-- The state between the change of a collection and the release of what it held. -/
theorem setContents (h : s.Sound os) {old x : Contents} (ho : s.contents? (.object id) = some old)
    (hk : old.kind = x.kind) (hx : s.SafeAll x.owned) :
    ((s.attachAll x.owned).setContents id x).Sound (old.owned ++ os) ∧
      ((s.attachAll x.owned).setContents id x).contents? (.object id) = some x := by
  have ha : (s.attachAll x.owned).Sound (x.owned ++ os) := h.attachAll hx
  obtain ⟨c, hc, hb⟩ := contents?_object.mp ((Grows.attachAll s x.owned).contents? ho)
  have hn := ha.toCounted.setContents hc hb
  rw [setContents_eq_put hc] at hn ⊢
  refine ⟨⟨hn, ha.toRecorded.put hc _, ha.ordered.put hc (becomes_of_kind hb hk)⟩,
    contents?_object.mpr ?_⟩
  exact ⟨{ c with body := .collection x }, by rw [find?_put hc, if_pos rfl], rfl⟩

theorem replace (h : s.Sound os) {x : Contents} (hx : s.SafeAll x.owned) (id : Nat) :
    (s.replace id x).Sound os := by
  cases ho : s.contents? (.object id) with
  | none => rwa [replace_of_none x ho]
  | some old =>
    by_cases hk : old.kind = x.kind
    · rw [replace_eq ho hk]
      exact (h.setContents ho hk hx).1.releaseAll
    · rwa [replace_of_kind_ne ho hk]

/-- A collection that has an owner holds what it is given. -/
theorem contents?_replace (h : s.Sound os) {old x : Contents}
    (ho : s.contents? (.object id) = some old) (hk : old.kind = x.kind) (hx : s.SafeAll x.owned)
    (hid : .object id ∈ os) : (s.replace id x).contents? (.object id) = some x := by
  obtain ⟨d, hd⟩ := (h.replace hx id).isLive_of_mem hid
  rw [replace_eq ho hk] at hd ⊢
  obtain ⟨c, hc, hcd⟩ := alike_of_releaseAll _ _ id d hd
  obtain ⟨c', hc', hb⟩ := contents?_object.mp (h.setContents ho hk hx).2
  cases hc.symm.trans hc'
  exact contents?_object.mpr ⟨d, hd, hcd.body.trans hb⟩

end Sound

end CountedObjects.Store
