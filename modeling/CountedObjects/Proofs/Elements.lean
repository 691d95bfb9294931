import CountedObjects.Proofs.Realm
import CountedObjects.Proofs.Store.Observation
import Mathlib.Data.List.Forall2

/-! Objects that stand for the elements of a collection. An element that is a handle stands for
itself, any other is boxed, and an entry of a dictionary is a pair. -/
namespace CountedObjects

variable {s t : Store} {os os' : List Handle} {h : Handle}

theorem Store.Precedes.body?_eq (hst : s.Precedes t) (ht : t.Safe h) {b : Body}
    (hb : s.body? h = some b) (hn : ∀ c, b ≠ .collection c) : t.body? h = some b := by
  cases h with
  | null => cases hb
  | type d => cases hb
  | object id =>
    obtain ⟨c, hc, rfl⟩ := Option.map_eq_some_iff.mp hb
    obtain ⟨d, hd⟩ := ht.isLive
    obtain ⟨c', hc', hcd⟩ := hst.find?_of_isLive ⟨c, hc⟩ hd
    cases hc.symm.trans hc'
    refine Option.map_eq_some_iff.mpr ⟨d, hd, ?_⟩
    have hbody := hcd.body
    generalize c.body = x at hbody hn
    generalize d.body = y at hbody
    cases hbody with
    | refl => rfl
    | contents => exact absurd rfl (hn _)

namespace ElementType

def Represents (s : Store) : (t : ElementType) → t.Value → Handle → Prop
  | scalar k, v, h => s.body? h = some (.boxed (k.wrap v))
  | string, v, h => s.body? h = some (.text v)
  | object, v, h => h = v
  | key, v, h => h = v
  | pointer _, v, h => h = v
  | option _, none, h => h = .null
  | option t, some v, h => t.Represents s v h

theorem Represents.mono (hst : s.Precedes t) (ht : t.Safe h) :
    (e : ElementType) → (v : e.Value) → e.Represents s v h → e.Represents t v h
  | scalar _, _, hv => hst.body?_eq ht hv fun _ hn => Body.noConfusion hn
  | string, _, hv => hst.body?_eq ht hv fun _ hn => Body.noConfusion hn
  | object, _, hv | key, _, hv | pointer _, _, hv => hv
  | option _, none, hv => hv
  | option e, some v, hv => Represents.mono hst ht e v hv

theorem represents_toObject (r : Realm) : (e : ElementType) → (v : e.Value) →
    e.Represents (r.toObject e v).2.store v (r.toObject e v).1
  | scalar k, v => r.body?_make (.boxed (k.wrap v))
  | string, v => r.body?_make (.text v)
  | object, _ | key, _ | pointer _, _ => rfl
  | option _, none => rfl
  | option e, some v => represents_toObject r e v

end ElementType

/-- A pair of objects that stand for a key and its value. -/
def Slot.Represents (s : Store) {k v : ElementType} (e : Slot k.Value v.Value) (h : Handle) :
    Prop :=
  ∃ key value, s.body? h = some (.pair key value) ∧ k.Represents s e.key key ∧
    v.Represents s e.value value

theorem Slot.Represents.mono {k v : ElementType} {e : Slot k.Value v.Value}
    (he : e.Represents s h) (hst : s.Precedes t) (ht : t.Sound os) (hh : t.Safe h) :
    e.Represents t h := by
  obtain ⟨key, value, hb, hk, hv⟩ := he
  have hb' : t.body? h = some (.pair key value) :=
    hst.body?_eq hh hb fun _ hn => Body.noConfusion hn
  obtain ⟨hsk, hsv⟩ := Store.safeAll_pair.mp (ht.safe_of_pair hb')
  exact ⟨key, value, hb', hk.mono hst hsk, hv.mono hst hsv⟩

/-- Objects that stand for the elements of a collection, one for each and in their order. -/
def Contents.Represents (s : Store) : Contents → List Handle → Prop
  | list t xs, hs => List.Forall₂ (t.Represents s) xs hs
  | queue t xs, hs => List.Forall₂ (t.Represents s) xs hs
  | hashSet t ss, hs => List.Forall₂ (t.Represents s) (ss.map Slot.key) hs
  | dictionary _ _ ss, hs => List.Forall₂ (Slot.Represents s) ss hs

/-- A collection without its first elements. -/
def Contents.drop (n : Nat) : Contents → Contents
  | list t xs => .list t (xs.drop n)
  | queue t xs => .queue t (xs.drop n)
  | hashSet t ss => .hashSet t (ss.drop n)
  | dictionary k v ss => .dictionary k v (ss.drop n)

namespace Contents.Represents

variable {c : Contents} {hs : List Handle}

theorem length_eq (h : c.Represents s hs) : hs.length = c.count := by
  cases c with
  | hashSet t ss => exact (List.Forall₂.length_eq h).symm.trans (List.length_map _)
  | _ => exact (List.Forall₂.length_eq h).symm

theorem drop (h : c.Represents s hs) (n : Nat) : (c.drop n).Represents s (hs.drop n) := by
  cases c with
  | hashSet t ss =>
    rw [Contents.drop, Contents.Represents, List.map_drop]
    exact List.forall₂_drop n h
  | _ => exact List.forall₂_drop n h

/-- Objects that live stand for what they stood for. -/
theorem mono (h : c.Represents s hs) (hst : s.Precedes t) (ht : t.Sound os)
    (hsafe : t.SafeAll hs) : c.Represents t hs := by
  have later : ∀ {α : Type} {R S : α → Handle → Prop} {xs : List α},
      (∀ x y, t.Safe y → R x y → S x y) → List.Forall₂ R xs hs → List.Forall₂ S xs hs := by
    intro α R S xs hRS hxs
    have hboth := (List.forall₂_and_left hs xs).mpr ⟨hsafe, hxs.flip⟩
    exact hboth.flip.imp fun x y hy => hRS x y hy.1 hy.2
  cases c with
  | list e xs => exact later (fun x _ hy hx => hx.mono hst hy e x) h
  | queue e xs => exact later (fun x _ hy hx => hx.mono hst hy e x) h
  | hashSet e ss => exact later (fun x _ hy hx => hx.mono hst hy e x) h
  | dictionary k v ss => exact later (fun _ _ hy hx => hx.mono hst ht hy) h

end Contents.Represents

namespace Realm

variable {r : Realm}

theorem toObjects_represents (h : r.store.Sound os) (t : ElementType) (vs : List t.Value)
    (hv : r.store.SafeAll (vs.flatMap t.owned)) :
    List.Forall₂ (t.Represents (r.toObjects t vs).2.store) vs (r.toObjects t vs).1 := by
  induction vs generalizing r os with
  | nil => exact .nil
  | cons v vs ih =>
    have h₁ := toObject_gives h t v fun x hx => hv x (List.mem_append_left _ hx)
    have hvs : (r.toObject t v).2.store.SafeAll (vs.flatMap t.owned) :=
      fun x hx => h₁.grows.safe (hv x (List.mem_append_right _ hx))
    have h₂ := toObjects_gives h₁.sound t vs hvs
    have hsafe := h₁.sound.safe_of_mem (List.mem_cons_self ..)
    have hrep := (t.represents_toObject r v).mono h₂.grows.toPrecedes (h₂.grows.safe hsafe)
    exact .cons hrep (ih h₁.sound hvs)

theorem toPairs_represents (h : r.store.Sound os) (k v : ElementType)
    (ss : List (Slot k.Value v.Value))
    (hv : r.store.SafeAll (ss.flatMap fun s => k.owned s.key ++ v.owned s.value)) :
    List.Forall₂ (Slot.Represents (r.toPairs k v ss).2.store) ss (r.toPairs k v ss).1 := by
  induction ss generalizing r os with
  | nil => exact .nil
  | cons s ss ih =>
    have h₁ := toObject_gives h k s.key fun x hx =>
      hv x (List.mem_append_left _ (List.mem_append_left _ hx))
    have h₂ := toObject_gives h₁.sound v s.value fun x hx =>
      h₁.grows.safe (hv x (List.mem_append_left _ (List.mem_append_right _ hx)))
    have hparts := ((h₁.trans h₂).perm (.swap ..)).sound
    have h₃ := makePair_gives hparts
    have hg := (h₁.trans h₂).grows.trans h₃.grows
    have hss := fun x hx => hg.safe (hv x (List.mem_append_right _ hx))
    have h₄ := toPairs_gives h₃.sound k v ss hss
    have hp := body?_makePair hparts
    have hsafe := h₃.sound.safe_of_mem (List.mem_cons_self ..)
    obtain ⟨hsk, hsv⟩ := Store.safeAll_pair.mp (h₃.sound.safe_of_pair hp)
    have hkey := (k.represents_toObject r s.key).mono (h₂.grows.trans h₃.grows).toPrecedes hsk
    have hvalue := (v.represents_toObject _ s.value).mono h₃.grows.toPrecedes hsv
    have hpair := Slot.Represents.mono ⟨_, _, hp, hkey, hvalue⟩ h₄.grows.toPrecedes h₄.sound
      (h₄.grows.safe hsafe)
    exact .cons hpair (ih h₃.sound hss)

/-- The objects that a collection is listed as stand for its elements. -/
theorem enumerate_represents (h : r.store.Sound os) (c : Contents) (hc : r.store.SafeAll c.owned) :
    c.Represents (r.enumerate c).2.store (r.enumerate c).1 := by
  cases c with
  | list t xs => exact toObjects_represents h t xs hc
  | queue t xs => exact toObjects_represents h t xs hc
  | hashSet t ss =>
    refine toObjects_represents h t _ ?_
    rwa [List.flatMap_map]
  | dictionary k v ss => exact toPairs_represents h k v ss hc

end Realm

end CountedObjects
