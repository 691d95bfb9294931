import CountedObjects.Proofs.Elements
import CountedObjects.Proofs.Session.Tables

/-! Elements recovered from the objects that stand for them. An object stands for one element alone
if its type tells a missing element from a null handle, and a handle of a pointer type always
points to an object of its kind. -/
namespace CountedObjects

variable {s t : Store} {h : Handle} {os : List Handle}

theorem mapM_of_forall₂ {α : Type} {f : Handle → Result α} {xs : List α} {hs : List Handle}
    (h : List.Forall₂ (fun x y => f y = .ok x) xs hs) : hs.mapM f = .ok xs := by
  induction h with
  | nil => rfl
  | cons hx _ ih =>
    rw [List.mapM_cons, hx, ih]
    rfl

namespace Store

theorem Grows.isKind {k : Kind} (hst : s.Grows t) (hk : s.isKind k h = true) :
    t.isKind k h = true := by
  cases h with
  | null => cases hk
  | type d => exact hk
  | object id =>
    cases hc : s.find? id with
    | none => simp [Store.isKind, pointee?, hc] at hk
    | some c =>
      obtain ⟨d, hd, hcd⟩ := hst.keeps id c hc
      simpa [Store.isKind, pointee?, hc, hd, Pointee.kind, hcd.body] using hk

/-- An object is of one kind for its life. -/
theorem Precedes.isKind {k : Kind} (hst : s.Precedes t) (ht : t.Safe h)
    (hk : s.isKind k h = true) : t.isKind k h = true := by
  cases h with
  | null => cases hk
  | type d => exact hk
  | object id =>
    obtain ⟨d, hd⟩ := ht.isLive
    cases hc : s.find? id with
    | none => simp [Store.isKind, pointee?, hc] at hk
    | some c =>
      obtain ⟨c', hc', hcd⟩ := hst.find?_of_isLive ⟨c, hc⟩ hd
      cases hc.symm.trans hc'
      simpa [Store.isKind, pointee?, hc, hd, Pointee.kind, hcd.body.kind] using hk

theorem isNull_of_body? {b : Body} (hb : s.body? h = some b) : h.isNull = false := by
  cases h with
  | null => cases hb
  | type | object => rfl

end Store

namespace ElementType

/-- A handle of a pointer type points to an object of its kind or to nothing. -/
def Fits (s : Store) : (t : ElementType) → t.Value → Prop
  | scalar _, _ | string, _ | object, _ | key, _ => True
  | pointer k, h => h.isNull = true ∨ s.isKind k h = true
  | option _, none => True
  | option t, some v => t.Fits s v

theorem fits_ofObject : (t : ElementType) → (v : t.Value) → t.ofObject s h = .ok v → t.Fits s v
  | scalar _, _, _ | string, _, _ | object, _, _ | key, _, _ => trivial
  | pointer k, v, hv => by
    obtain rfl := Store.eq_of_tryCast hv
    simp only [ofObject, Store.tryCast] at hv
    split at hv
    · next hk => simpa [Fits] using hk
    · exact absurd hv Store.mismatch_ne_ok
  | option _, none, _ => trivial
  | option t, some v, hv => fits_ofObject t v (ofObject_of_option hv)

/-- Each element of a list was recovered from one of the objects. -/
theorem exists_of_ofObjects {e : ElementType} {hs : List Handle} {vs : List e.Value}
    (hv : e.ofObjects s hs = .ok vs) : ∀ v ∈ vs, ∃ h ∈ hs, e.ofObject s h = .ok v := by
  induction hs generalizing vs with
  | nil =>
    cases hv
    exact List.forall_mem_nil _
  | cons h hs ih =>
    rw [ofObjects, List.mapM_cons] at hv
    cases hh : e.ofObject s h with
    | error f => simp [hh, bind, Except.bind] at hv
    | ok w =>
      cases hr : hs.mapM (e.ofObject s) with
      | error f => simp [hh, hr, bind, Except.bind] at hv
      | ok ws =>
        simp only [hh, hr, bind, Except.bind, pure, Except.pure, Except.ok.injEq] at hv
        subst hv
        refine List.forall_mem_cons.mpr ⟨⟨h, List.mem_cons_self .., hh⟩, fun v hv => ?_⟩
        obtain ⟨o, ho, hov⟩ := ih hr v hv
        exact ⟨o, List.mem_cons_of_mem _ ho, hov⟩

theorem Fits.grows (hst : s.Grows t) : (e : ElementType) → (v : e.Value) → e.Fits s v → e.Fits t v
  | scalar _, _, _ | string, _, _ | object, _, _ | key, _, _ => trivial
  | pointer _, _, hv => hv.imp_right hst.isKind
  | option _, none, _ => trivial
  | option e, some v, hv => Fits.grows hst e v hv

theorem Fits.mono (hst : s.Precedes t) :
    (e : ElementType) → (v : e.Value) → t.SafeAll (e.owned v) → e.Fits s v → e.Fits t v
  | scalar _, _, _, _ | string, _, _, _ | object, _, _, _ | key, _, _, _ => trivial
  | pointer _, h, ht, hv => hv.imp_right (hst.isKind (ht h (List.mem_singleton_self h)))
  | option _, none, _, _ => trivial
  | option e, some v, ht, hv => Fits.mono hst e v ht hv

def boxes : ElementType → Bool
  | scalar _ | string => true
  | _ => false

/-- No object stands for two elements. An optional handle would be missing or null. -/
def Recoverable : ElementType → Prop
  | option t => t.boxes = true
  | _ => True

theorem ofObject_of_boxes (e : ElementType) {v : e.Value} (he : e.boxes = true)
    (hv : e.Represents s v h) : h.isNull = false ∧ e.ofObject s h = .ok v := by
  cases e with
  | scalar k =>
    have hb : s.body? h = some (.boxed (k.wrap v)) := hv
    have hn := Store.isNull_of_body? hb
    refine ⟨hn, ?_⟩
    rw [ofObject, Store.unbox, hn, hb]
    simp
  | string =>
    have hb : s.body? h = some (.text v) := hv
    have hn := Store.isNull_of_body? hb
    refine ⟨hn, ?_⟩
    rw [ofObject, Store.unboxText, hn, hb]
    rfl
  | object | key | pointer | option => cases he

/-- What an element is recovered as from an object that stands for it. An optional element whose
object is null is missing. -/
def recovered : (t : ElementType) → t.Value → Handle → t.Value
  | option _, v, h => if h.isNull then none else v
  | scalar _, v, _ | string, v, _ | object, v, _ | key, v, _ | pointer _, v, _ => v

theorem recovered_of_not_null (hn : h.isNull = false) :
    (e : ElementType) → (v : e.Value) → e.recovered v h = v
  | option _, _ => if_neg (by rw [hn]; exact Bool.false_ne_true)
  | scalar _, _ | string, _ | object, _ | key, _ | pointer _, _ => rfl

theorem recovered_of_represents (e : ElementType) {v : e.Value} (he : e.Recoverable)
    (hv : e.Represents s v h) : e.recovered v h = v := by
  cases e with
  | scalar | string | object | key | pointer => rfl
  | option e =>
    cases v with
    | none => exact ite_self _
    | some v => exact recovered_of_not_null (ofObject_of_boxes e he hv).1 (.option e) (some v)

/-- An object is converted back to the element that it stands for, up to null. -/
theorem ofObject_eq_recovered :
    (e : ElementType) → (v : e.Value) → e.Fits s v → e.Represents s v h →
      e.ofObject s h = .ok (e.recovered v h)
  | scalar k, _, _, hv => (ofObject_of_boxes (.scalar k) rfl hv).2
  | string, _, _, hv => (ofObject_of_boxes .string rfl hv).2
  | object, v, _, hv | key, v, _, hv => by
    obtain rfl : h = v := hv
    rfl
  | pointer k, v, hf, hv => by
    obtain rfl : h = v := hv
    exact if_pos (Bool.or_eq_true_iff.mpr hf)
  | option _, none, _, hv => by
    obtain rfl : h = .null := hv
    rfl
  | option e, some v, hf, hv => by
    cases hn : h.isNull with
    | true => simp only [ofObject, recovered, hn, if_true]
    | false =>
      rw [recovered_of_not_null hn, ofObject, if_neg (by rw [hn]; exact Bool.false_ne_true),
        ofObject_eq_recovered e v hf hv, recovered_of_not_null hn]
      rfl

theorem ofObject_of_represents (e : ElementType) {v : e.Value} (he : e.Recoverable)
    (hf : e.Fits s v) (hv : e.Represents s v h) : e.ofObject s h = .ok v := by
  rw [ofObject_eq_recovered e v hf hv, recovered_of_represents e he hv]

theorem ofObjects_of_represents (e : ElementType) (he : e.Recoverable) {vs : List e.Value}
    {hs : List Handle} (hf : ∀ v ∈ vs, e.Fits s v) (hv : List.Forall₂ (e.Represents s) vs hs) :
    e.ofObjects s hs = .ok vs :=
  mapM_of_forall₂ (((List.forall₂_and_left vs hs).mpr ⟨hf, hv⟩).imp fun _ _ h =>
    e.ofObject_of_represents he h.1 h.2)

end ElementType

/-- The key and the value of a pair, each converted to an element. -/
def Store.entry (s : Store) (k v : ElementType) (h : Handle) : Result (k.Value × v.Value) := do
  let h ← s.cast .pair h
  match s.body? h with
  | some (.pair key value) => return (← k.ofObject s key, ← v.ofObject s value)
  | _ => throw (.abort .nullReference)

theorem Store.cast_pair {key value : Handle} (hb : s.body? h = some (.pair key value)) :
    s.cast .pair h = .ok h := by
  have hk : s.isKind .pair h = true := by
    cases h with
    | null | type => cases hb
    | object id =>
      obtain ⟨c, hc, hbody⟩ := Option.map_eq_some_iff.mp hb
      simp [isKind, pointee?, hc, Pointee.kind, hbody, Body.kind]
  rw [cast, tryCast, hk, Bool.or_true, if_pos rfl]
  rfl

theorem Store.entry_of_represents {k v : ElementType} {e : Slot k.Value v.Value}
    (hk : k.Recoverable) (hv : v.Recoverable) (hfk : k.Fits s e.key) (hfv : v.Fits s e.value)
    (he : e.Represents s h) : s.entry k v h = .ok (e.key, e.value) := by
  obtain ⟨key, value, hb, hkey, hvalue⟩ := he
  simp only [entry, cast_pair hb, bind, Except.bind, hb, k.ofObject_of_represents hk hfk hkey,
    v.ofObject_of_represents hv hfv hvalue]
  rfl

theorem exists_of_forall₂ {α β : Type} {R : α → β → Prop} {xs : List α} {ys : List β} {n : Nat}
    {y : β} (h : List.Forall₂ R xs ys) (hy : ys[n]? = some y) : ∃ x, xs[n]? = some x ∧ R x y := by
  obtain ⟨hn, rfl⟩ := List.getElem?_eq_some_iff.mp hy
  have hn' : n < xs.length := h.length_eq ▸ hn
  exact ⟨xs[n], List.getElem?_eq_getElem hn', h.get hn' hn⟩

/-- What an element may hold lives with the object that stands for the element. -/
theorem ElementType.Represents.safeAll_owned {o : Handle} (ho : s.Safe o) : (e : ElementType) →
    (v : e.Value) → e.Represents s v o → s.SafeAll (e.owned v)
  | scalar _, _, _ | string, _, _ => s.safeAll_nil
  | object, _, hv | key, _, hv | pointer _, _, hv => fun x hx => by
    obtain rfl : o = _ := hv
    exact List.mem_singleton.mp hx ▸ ho
  | option _, none, _ => s.safeAll_nil
  | option e, some v, hv => safeAll_owned ho e v hv

theorem Slot.Represents.safeAll_owned {k v : ElementType} {e : Slot k.Value v.Value} {o : Handle}
    (he : e.Represents s o) (hs : s.Sound os) :
    s.SafeAll (k.owned e.key) ∧ s.SafeAll (v.owned e.value) := by
  obtain ⟨key, value, hb, hk, hv⟩ := he
  obtain ⟨hsk, hsv⟩ := Store.safeAll_pair.mp (hs.safe_of_pair hb)
  exact ⟨hk.safeAll_owned hsk, hv.safeAll_owned hsv⟩

namespace Contents

/-- The first elements of a collection. -/
def take (n : Nat) : Contents → Contents
  | list t xs => .list t (xs.take n)
  | queue t xs => .queue t (xs.take n)
  | hashSet t ss => .hashSet t (ss.take n)
  | dictionary k v ss => .dictionary k v (ss.take n)

/-- All keys, values and other elements of a collection have a property. -/
def All (P : (t : ElementType) → t.Value → Prop) : Contents → Prop
  | list t xs => ∀ x ∈ xs, P t x
  | queue t xs => ∀ x ∈ xs, P t x
  | hashSet t ss => Table.All (P t) (fun _ => True) ss
  | dictionary k v ss => Table.All (P k) (P v) ss

def Recoverable : Contents → Prop
  | list t _ | queue t _ | hashSet t _ => t.Recoverable
  | dictionary k v _ => k.Recoverable ∧ v.Recoverable

/-- The objects converted back are the elements, in their order. -/
def Recovers (s : Store) : Contents → List Handle → Prop
  | list t xs, hs => t.ofObjects s hs = .ok xs
  | queue t xs, hs => t.ofObjects s hs = .ok xs
  | hashSet t ss, hs => t.ofObjects s hs = .ok (ss.map Slot.key)
  | dictionary k v ss, hs => hs.mapM (s.entry k v) = .ok (ss.map fun e => (e.key, e.value))

variable {P Q : (t : ElementType) → t.Value → Prop} {c : Contents} {hs : List Handle} {n : Nat}

theorem All.imp (h : c.All P) (hPQ : ∀ t v, P t v → Q t v) : c.All Q := by
  cases c with
  | list t xs => exact fun x hx => hPQ t x (h x hx)
  | queue t xs => exact fun x hx => hPQ t x (h x hx)
  | hashSet t ss => exact fun e he => ⟨hPQ t e.key (h e he).1, trivial⟩
  | dictionary k v ss => exact fun e he => ⟨hPQ k e.key (h e he).1, hPQ v e.value (h e he).2⟩

theorem All.and (h : c.All P) (h' : c.All Q) : c.All fun t v => P t v ∧ Q t v := by
  cases c with
  | list t xs => exact fun x hx => ⟨h x hx, h' x hx⟩
  | queue t xs => exact fun x hx => ⟨h x hx, h' x hx⟩
  | hashSet t ss => exact fun e he => ⟨⟨(h e he).1, (h' e he).1⟩, trivial⟩
  | dictionary k v ss =>
    exact fun e he => ⟨⟨(h e he).1, (h' e he).1⟩, (h e he).2, (h' e he).2⟩

theorem all_of_count_eq_zero (h : c.count = 0) : c.All P := by
  cases c with
  | list t xs =>
    obtain rfl := List.length_eq_zero_iff.mp h
    exact List.forall_mem_nil _
  | queue t xs =>
    obtain rfl := List.length_eq_zero_iff.mp h
    exact List.forall_mem_nil _
  | hashSet t ss =>
    obtain rfl := List.length_eq_zero_iff.mp h
    exact (Table.all_nil : Table.All (P t) (fun _ => True) [])
  | dictionary k v ss =>
    obtain rfl := List.length_eq_zero_iff.mp h
    exact Table.all_nil

theorem safeAll_owned : s.SafeAll c.owned ↔ c.All fun t v => s.SafeAll (t.owned v) := by
  cases c with
  | list t xs => exact Store.safeAll_list
  | queue t xs => exact Store.safeAll_queue
  | hashSet t ss => exact Store.safeAll_hashSet
  | dictionary k v ss => exact Store.safeAll_dictionary

theorem kind_take (c : Contents) (n : Nat) : (c.take n).kind = c.kind := by
  cases c <;> rfl

theorem take_of_count_le (h : c.count ≤ n) : c.take n = c := by
  cases c with
  | list => exact congrArg _ (List.take_of_length_le h)
  | queue => exact congrArg _ (List.take_of_length_le h)
  | hashSet => exact congrArg _ (List.take_of_length_le h)
  | dictionary => exact congrArg _ (List.take_of_length_le h)

theorem All.take (h : c.All P) (n : Nat) :
    (c.take n).All P := by
  cases c with
  | list | queue => exact fun x hx => h x (List.mem_of_mem_take hx)
  | hashSet | dictionary => exact fun e he => h e (List.mem_of_mem_take he)

theorem Represents.safeAll_owned (h : c.Represents s hs) (hs' : s.Sound os) (hsafe : s.SafeAll hs) :
    s.SafeAll c.owned := by
  rw [Contents.safeAll_owned]
  have each : ∀ {α : Type} {R : α → Handle → Prop} {xs : List α} {Q : α → Prop},
      (∀ x o, s.Safe o → R x o → Q x) → List.Forall₂ R xs hs → ∀ x ∈ xs, Q x := by
    intro α R xs Q hRQ hxs x hx
    obtain ⟨i, hi⟩ := List.mem_iff_getElem?.mp hx
    obtain ⟨o, ho, hxo⟩ := exists_of_forall₂ hxs.flip hi
    exact hRQ x o (hsafe o (List.mem_of_getElem? ho)) hxo
  cases c with
  | list t xs => exact each (fun x o ho hx => hx.safeAll_owned ho t x) h
  | queue t xs => exact each (fun x o ho hx => hx.safeAll_owned ho t x) h
  | hashSet t ss =>
    have hss := List.forall₂_map_left_iff.mp h
    exact each (fun e o ho he => ⟨he.safeAll_owned ho t e.key, trivial⟩) hss
  | dictionary k v ss => exact each (fun e o _ he => he.safeAll_owned hs') h

theorem Represents.recovers (h : c.Represents s hs) (hc : c.Recoverable)
    (hf : c.All fun t v => t.Fits s v) : c.Recovers s hs := by
  cases c with
  | list t xs => exact t.ofObjects_of_represents hc hf h
  | queue t xs => exact t.ofObjects_of_represents hc hf h
  | hashSet t ss =>
    exact t.ofObjects_of_represents hc (List.forall_mem_map.mpr fun e he => (hf e he).1) h
  | dictionary k v ss =>
    refine mapM_of_forall₂ (List.forall₂_map_left_iff.mpr ?_)
    exact ((List.forall₂_and_left ss hs).mpr ⟨hf, h⟩).imp fun e o ho =>
      Store.entry_of_represents hc.1 hc.2 ho.1.1 ho.1.2 ho.2

end Contents

end CountedObjects
