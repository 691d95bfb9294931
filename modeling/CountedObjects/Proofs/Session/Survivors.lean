import CountedObjects.Proofs.Session.Ownership
import CountedObjects.Proofs.Store.Cycles

/-! Which of the objects that a step makes outlive it. They are those that the changed collections
lead to, so a step that changes nothing leaves every count of references as it was. -/
namespace CountedObjects

/-- An object without elements holds nothing but the parts it was made with. -/
theorem Body.mem_parts_of_isBare {b : Body} (hb : b.IsBare) {h : Handle} (hh : h ∈ b.owned) :
    h ∈ b.parts := by
  cases b with
  | collection c =>
    have hc : c.owned = [] := by
      cases c <;> rw [Contents.owned, List.length_eq_zero_iff.mp hb] <;> rfl
    rw [Body.owned, hc] at hh
    exact hh
  | _ => exact hh

/-- A sum is at most another one if each weight is at most the one in its place. -/
theorem total_le {α : Type} (w : α → Nat) {xs ys : List α}
    (h : ∀ (i : Nat) y, ys[i]? = some y → w y ≤ (xs[i]?.map w).getD 0) :
    total w ys ≤ total w xs := by
  induction ys generalizing xs with
  | nil => exact Nat.zero_le _
  | cons y ys ih =>
    have hy := h 0 y rfl
    cases xs with
    | nil => exact Nat.add_le_add hy (@ih [] fun i => h (i + 1))
    | cons x xs => exact Nat.add_le_add hy (ih fun i => h (i + 1))

namespace Store

variable {s t u : Store} {id : Nat} {os : List Handle}

/-- A handle is not held more often if no object holds it more often than before. -/
theorem count_owned_le {x : Handle} (h : ∀ id d, t.find? id = some d → x ∈ d.body.owned →
    ∃ c, s.find? id = some c ∧ d.body.owned.count x ≤ c.body.owned.count x) :
    t.owned.count x ≤ s.owned.count x := by
  rw [count_owned, count_owned]
  refine total_le _ fun i y hy => ?_
  by_cases hx : x ∈ Cell.held y
  · cases y with
    | none => cases hx
    | some d =>
      obtain ⟨c, hc, hle⟩ := h i d (find?_eq_some_iff.mpr (by simpa using hy)) hx
      rw [getElem?_of_find? hc]
      exact hle
  · rw [List.count_eq_zero.mpr hx]
    exact Nat.zero_le _

/-- All objects of `s` live in `t` and hold what they held. -/
def Keeps (s t : Store) : Prop :=
  ∀ id c, s.find? id = some c → ∃ d, t.find? id = some d ∧ d.body.owned = c.body.owned

theorem Grows.keepsOwned (h : s.Grows t) : s.Keeps t := by
  intro id c hc
  obtain ⟨d, hd, hcd⟩ := h.keeps id c hc
  exact ⟨d, hd, by rw [hcd.body]⟩

theorem Keeps.trans (h : s.Keeps t) (h' : t.Keeps u) : s.Keeps u := by
  intro id c hc
  obtain ⟨d, hd, hcd⟩ := h id c hc
  obtain ⟨e, he, hde⟩ := h' id d hd
  exact ⟨e, he, hde.trans hcd⟩

theorem Keeps.owns (h : s.Keeps t) {i j : Nat} (ho : s.Owns i j) : t.Owns i j := by
  obtain ⟨c, hc, hm⟩ := ho
  obtain ⟨d, hd, hcd⟩ := h i c hc
  exact ⟨d, hd, hcd ▸ hm⟩

/-- A release of handles held besides keeps a set of objects that others hold or that hold each
other. -/
theorem Counted.keeps_releaseAll {hs : List Handle} (ht : t.Counted (hs ++ os)) (h : s.Keeps t)
    (hos : ∀ id, s.IsLive id → .object id ∈ os ∨ ∃ i, s.Owns i id) : s.Keeps (t.releaseAll hs) := by
  have hlive : ∀ id, s.IsLive id → (t.releaseAll hs).IsLive id := by
    refine ht.isLive_releaseAll s.IsLive fun id hid => (hos id hid).imp_right fun ho => ?_
    obtain ⟨i, ho⟩ := ho
    have hi : s.IsLive i := ho.imp fun _ hc => hc.1
    exact ⟨i, hi, h.owns ho⟩
  intro id c hc
  obtain ⟨e, he⟩ := hlive id ⟨c, hc⟩
  obtain ⟨d, hd, hde⟩ := alike_of_releaseAll t hs id e he
  obtain ⟨d', hd', hcd⟩ := h id c hc
  cases hd.symm.trans hd'
  exact ⟨e, he, by rw [hde.body, hcd]⟩

/-- A collection that is given the handles that it held changes nothing that objects hold. -/
theorem Sound.keeps_replace (h : s.Sound os) {old x : Contents}
    (ho : s.contents? (.object id) = some old) (hk : old.kind = x.kind)
    (hx : x.owned = old.owned) (hsafe : s.SafeAll x.owned) : s.Keeps (s.replace id x) := by
  rw [replace_eq ho hk]
  refine (h.setContents ho hk hsafe).1.keeps_releaseAll ?_ fun id hid => h.isLive_iff.mp hid
  have hg : s.Grows (s.attachAll x.owned) := .attachAll s x.owned
  refine hg.keepsOwned.trans fun j c hc => ?_
  obtain ⟨b, hb, hold⟩ := contents?_object.mp (hg.contents? ho)
  rw [setContents_eq_put hb, find?_put hb]
  by_cases hj : j = id
  · subst hj
    cases hb.symm.trans hc
    exact ⟨_, if_pos rfl, by rw [hold]; exact hx⟩
  · exact ⟨c, by rw [if_neg hj, hc], rfl⟩

theorem held_getElem? (s : Store) (hlt : id < s.cells.size) :
    s.cells.toList[id]?.map Cell.held = some (Cell.held (s.find? id)) := by
  simp [find?, hlt]

/-- If objects hold what they held and there are no others, the objects of both states hold the
same handles. -/
theorem Keeps.owned_eq (h : s.Keeps t) (hst : s.Precedes t)
    (hnew : ∀ id, s.cells.size ≤ id → ¬ t.IsLive id) : t.owned = s.owned := by
  have held_eq : ∀ id, id < s.cells.size → Cell.held (t.find? id) = Cell.held (s.find? id) := by
    intro id hlt
    cases hd : t.find? id with
    | none =>
      have hc : s.find? id = none := by
        refine not_isLive_iff.mp fun hl => ?_
        obtain ⟨c, hc⟩ := hl
        obtain ⟨d, hd', -⟩ := h id c hc
        cases hd.symm.trans hd'
      rw [hc]
    | some d =>
      obtain ⟨c, hc, -⟩ := hst.cell id d hlt hd
      obtain ⟨d', hd', hcd⟩ := h id c hc
      cases hd.symm.trans hd'
      rw [hc, Cell.held, Cell.held, hcd]
  have hmap : t.cells.toList.map Cell.held =
      s.cells.toList.map Cell.held ++ List.replicate (t.cells.size - s.cells.size) [] := by
    have hle := hst.size_le
    apply List.ext_getElem?
    intro i
    rw [List.getElem?_map, List.getElem?_append, List.length_map, Array.length_toList]
    by_cases hlt : i < s.cells.size
    · rw [if_pos hlt, List.getElem?_map, t.held_getElem? (by omega), s.held_getElem? hlt,
        held_eq i hlt]
    · rw [if_neg hlt, List.getElem?_replicate]
      by_cases hlt' : i < t.cells.size
      · have hd := not_isLive_iff.mp (hnew i (by omega))
        rw [t.held_getElem? hlt', hd, if_pos (by omega)]
        rfl
      · rw [if_neg (by omega), List.getElem?_eq_none (by simpa using hlt')]
        rfl
  rw [owned, owned, List.flatMap_def, List.flatMap_def, hmap, List.flatten_append,
    List.flatten_replicate_nil, List.append_nil]

end Store

namespace Session

open Relation (ReflTransGen)

variable {s t u : Session} {id j : Nat} {changes : Nat → Body → Prop}

theorem roots_eq (hs : s.Settled) (ht : t.Settled) (hh : t.handles = s.handles)
    (he : t.enumerators = s.enumerators) : t.roots = s.roots := by
  rw [roots, roots, hh, he, hs.held, ht.held]

/-- An object that a step has made lives on only if a collection that it changed leads to it. -/
theorem Settled.survivor (hs : s.Settled) (ht : t.Settled)
    (hst : s.store.Spares changes t.store) (hr : t.roots = s.roots)
    (hge : s.store.cells.size ≤ j) (hj : t.store.IsLive j) :
    ∃ i c k, t.store.find? i = some c ∧ changes i c.body ∧ .object k ∈ c.body.owned ∧
      s.store.cells.size ≤ k ∧ ReflTransGen t.store.Owns k j := by
  -- The induction is on how many objects are younger, as owners of new objects are.
  induction hn : t.store.cells.size - j using Nat.strongRecOn generalizing j with
  | _ n ih =>
  have old_of_safe : ∀ {k}, s.store.Safe (.object k) → ¬ s.store.cells.size ≤ k :=
    fun hk => Nat.not_le.mpr hk.isLive.lt_size
  rcases ht.sound.isLive_iff.mp hj with hm | ⟨i, c, hc, hm⟩
  · exact absurd hge (old_of_safe (hs.sound.safe_of_mem_roots (hr ▸ hm)))
  · rcases hst.spared i c hc with hw | ⟨c', hc', hcd⟩ | ⟨hgei, hb⟩
    · exact ⟨i, c, j, hc, hw, hm, hge, .refl⟩
    · exact absurd hge (old_of_safe (hs.sound.safe_of_owned hc' (hcd.body ▸ hm)))
    · have hlt : j < i := ht.sound.ordered i c hc _ (Body.mem_parts_of_isBare hb hm)
      have hi := Store.lt_size_of_find? hc
      obtain ⟨i', c', k, hc', hw, hk, hgek, hreach⟩ := ih _ (by omega) hgei ⟨c, hc⟩ rfl
      exact ⟨i', c', k, hc', hw, hk, hgek, hreach.tail ⟨c, hc, hm⟩⟩

/-- A step that leaves names and enumerators alone, and what each object holds, leaves all counts
of references as they were. -/
theorem Settled.refs_eq (hs : s.Settled) (ht : t.Settled) (hst : s.store.Spares changes t.store)
    (hr : t.roots = s.roots) (hk : s.store.Keeps t.store)
    (hold : ∀ i b, changes i b → s.store.IsLive i) (j : Nat) :
    t.store.refs j = s.store.refs j := by
  have hnew : ∀ id, s.store.cells.size ≤ id → ¬ t.store.IsLive id := by
    intro id hge hl
    obtain ⟨i, d, k, hd, hw, hm, hgek, -⟩ := hs.survivor ht hst hr hge hl
    obtain ⟨c, hc⟩ := hold i _ hw
    obtain ⟨d', hd', hcd⟩ := hk i c hc
    cases hd.symm.trans hd'
    have hsafe := hs.sound.safe_of_owned hc (hcd ▸ hm)
    exact Nat.not_le.mpr hsafe.isLive.lt_size hgek
  rw [ht.sound.refs_eq, hs.sound.refs_eq, hr, hk.owned_eq hst.toPrecedes hnew]

theorem Settled.refs_le (hs : s.Settled) (ht : t.Settled) (hr : t.roots = s.roots)
    (h : ∀ id d, t.store.find? id = some d → .object j ∈ d.body.owned →
      ∃ c, s.store.find? id = some c ∧
        d.body.owned.count (.object j) ≤ c.body.owned.count (.object j)) :
    t.store.refs j ≤ s.store.refs j := by
  rw [ht.sound.refs_eq, hs.sound.refs_eq, hr]
  exact Nat.add_le_add_left (Store.count_owned_le h) _

/-- The end of a step takes nothing from the objects that lived when it began. -/
theorem Settled.keeps_endStep (hs : s.Settled) (hu : u.Sound) (hk : s.store.Keeps u.store)
    (hh : u.handles = s.handles) (he : u.enumerators = s.enumerators) :
    s.store.Keeps u.endStep.store := by
  have hcounted : u.store.Counted (u.held ++ ({ u with held := [] } : Session).roots) := by
    refine hu.toCounted.congr fun id => ?_
    simp only [List.count_append, count_roots, List.count_nil]
    omega
  refine hcounted.keeps_releaseAll hk fun id hid => ?_
  have hroots : s.roots = ({ u with held := [] } : Session).roots := by
    rw [roots, roots, hs.held, hh, he]
  exact hroots ▸ hs.sound.isLive_iff.mp hid

/-- A step that has built objects and stores none leaves all counts of references as they were. -/
theorem Settled.refs_endStep (hs : s.Settled) (hu : u.Sound) (hb : s.Builds u) (j : Nat) :
    u.endStep.store.refs j = s.store.refs j := by
  have ht : u.endStep.Settled := ⟨endStep_sound hu, rfl⟩
  have hst : s.store.Spares (fun _ _ => False) u.endStep.store :=
    hb.store.spares.trans (.releaseAll _ _)
  have hk := hs.keeps_endStep hu hb.store.keepsOwned hb.handles hb.enumerators
  have hr : u.endStep.roots = s.roots := roots_eq hs ht hb.handles hb.enumerators
  exact hs.refs_eq ht hst hr hk (fun _ _ hw => hw.elim) j

/-- So does a step that gives a collection the handles that it held. -/
theorem Settled.refs_replace_endStep (hs : s.Settled) (hu : u.Sound) (hb : s.Builds u)
    {old x : Contents} (ho : s.store.contents? (.object id) = some old) (hk : old.kind = x.kind)
    (hx : x.owned = old.owned) (j : Nat) :
    (u.mapRealm (·.replace id x)).endStep.store.refs j = s.store.refs j := by
  have hou := hb.store.contents? ho
  have hsafe : u.store.SafeAll x.owned := hx ▸ hu.safeAll_contents hou
  have hr : (u.mapRealm (·.replace id x)).Sound := Store.Sound.replace hu hsafe id
  have ht : (u.mapRealm (·.replace id x)).endStep.Settled := ⟨endStep_sound hr, rfl⟩
  have hkeeps : u.store.Keeps (u.mapRealm (·.replace id x)).store :=
    Store.Sound.keeps_replace hu hou hk hx hsafe
  have hend := hs.keeps_endStep hr (hb.store.keepsOwned.trans hkeeps) hb.handles hb.enumerators
  have hreplace : u.store.Spares (fun i _ => i = id) (u.store.replace id x) := .replace u.store rfl
  have hst : s.store.Spares (fun i _ => i = id) (u.mapRealm (·.replace id x)).endStep.store :=
    hb.store.spares.trans (hreplace.trans (.releaseAll _ _))
  refine hs.refs_eq ht hst (roots_eq hs ht hb.handles hb.enumerators) hend ?_ j
  rintro i _ rfl
  obtain ⟨c, hc, -⟩ := Store.contents?_object.mp ho
  exact ⟨c, hc⟩

end Session

end CountedObjects
