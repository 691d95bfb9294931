import CountedObjects.Proofs.Recovery
import CountedObjects.Proofs.Session.Contents

/-! Every handle that a collection holds as an element of a pointer type points to an object of
that kind. An element is stored only after it was recovered from an object, and no object changes
its kind. -/
namespace CountedObjects

/-- All elements of all collections fit their types. -/
def Store.Fitting (s : Store) : Prop :=
  ∀ id c, s.contents? (.object id) = some c → c.All fun t v => t.Fits s v

/-- An element that may be stored. -/
structure Store.Admits (s : Store) (t : ElementType) (v : t.Value) : Prop where
  safe : s.SafeAll (t.owned v)
  fits : t.Fits s v

namespace Store

variable {s t : Store} {changes : Nat → Body → Prop} {c : Contents}

theorem Admits.grows (hst : s.Grows t) {e : ElementType} {v : e.Value} (h : s.Admits e v) :
    t.Admits e v :=
  ⟨fun x hx => hst.safe (h.safe x hx), h.fits.grows hst e v⟩

theorem admits_ofObject {e : ElementType} {v : e.Value} {o : Handle} (ho : s.Safe o)
    (hv : e.ofObject s o = .ok v) : s.Admits e v :=
  ⟨fun x hx => e.owned_ofObject v hv x hx ▸ ho, e.fits_ofObject v hv⟩

/-- Collections that are as they were fit still; what was changed is left to be shown. -/
theorem Spares.fitting (h : s.Spares changes t)
    (hmono : ∀ id c, t.contents? (.object id) = some c → (c.All fun e v => e.Fits s v) →
      c.All fun e v => e.Fits t v)
    (hchanged : ∀ id c, t.contents? (.object id) = some c → changes id (.collection c) →
      c.All fun e v => e.Fits t v)
    (hs : s.Fitting) : t.Fitting := by
  intro id c hc
  obtain ⟨d, hd, hb⟩ := contents?_object.mp hc
  rcases h.spared id d hd with hw | ⟨c', hc', hcd⟩ | ⟨-, hbare⟩
  · exact hchanged id c hc (hb ▸ hw)
  · exact hmono id c hc (hs id c (contents?_object.mpr ⟨c', hc', hcd.body.symm.trans hb⟩))
  · rw [hb] at hbare
    exact Contents.all_of_count_eq_zero hbare

theorem Grows.fitting (h : s.Grows t) (hs : s.Fitting) : t.Fitting := by
  have hspares : s.Spares (fun _ _ => False) t := h.spares
  exact hspares.fitting (fun _ _ _ hc => hc.imp fun e v hv => hv.grows h e v)
    (fun _ _ _ hw => hw.elim) hs

end Store

open Session (Leads Builds)

namespace Session

variable {s t u : Session} {scope : Scope} {c : Contents} {h : String} {id : Nat}

/-- From `s` to `t` the elements of collections go on to fit. -/
def Fitted (s t : Session) : Prop := s.store.Fitting → t.store.Fitting

instance : Std.Refl Fitted := ⟨fun _ h => h⟩
instance : Trans Fitted Fitted Fitted := ⟨fun h h' hs => h' (h hs)⟩
instance : Trans Builds Fitted Fitted := ⟨fun h h' hs => h' (h.store.fitting hs)⟩

theorem Sound.all_fits (ht : t.Sound) (hst : s.store.Precedes t.store)
    (hc : t.store.contents? (.object id) = some c) (hfits : c.All fun e v => e.Fits s.store v) :
    c.All fun e v => e.Fits t.store v :=
  ((Contents.safeAll_owned.mp (ht.safeAll_contents hc)).and hfits).imp fun e v hv =>
    hv.2.mono hst e v hv.1

/-- A step that changes no collection keeps all elements fitting. -/
theorem Leads.fitted (hl : Leads scope s t) (ht : t.Sound)
    (hscope : ∀ id c, ¬ scope.objects id (.collection c)) : s.Fitted t :=
  hl.store.fitting (fun _ _ hc => ht.all_fits hl.store.toPrecedes hc)
    fun id c _ hw => absurd hw (hscope id c)

/-- A collection is written whose elements fit. -/
theorem Sound.fitted_of_writes {f : String → Prop} (ht : t.Sound)
    (hl : Leads ⟨fun _ b => b = .collection c, f⟩ s t) (hc : c.All s.store.Admits) : s.Fitted t :=
  hl.store.fitting (fun _ _ hd => ht.all_fits hl.store.toPrecedes hd) fun _ _ hd hw => by
    cases hw
    exact ht.all_fits hl.store.toPrecedes hd (hc.imp fun _ _ hv => hv.fits)

theorem Sound.admits_contents (hs : s.Sound) (hf : s.store.Fitting)
    (hc : s.store.contents? (.object id) = some c) : c.All s.store.Admits :=
  ((Contents.safeAll_owned.mp (hs.safeAll_contents hc)).and (hf id c hc)).imp fun _ _ hv =>
    ⟨hv.1, hv.2⟩

end Session

namespace Action

open Session

variable {α β O : Type} {s t : Session} {scope : Scope} {h : String} {c : Contents}
  {a : Action α} {P Q : β → Session → Prop} {R : α → Session → Prop}

theorem Ensures.fitted (ha : Ensures (Leads scope) a s R)
    (hscope : ∀ id c, ¬ scope.objects id (.collection c)) : Ensures Fitted a s R :=
  ⟨ha.sound, ha.follows.fitted ha.sound hscope, ha.result⟩

theorem Ensures.fitted_of_nothing (ha : Ensures (Leads .nothing) a s R) : Ensures Fitted a s R :=
  ha.fitted fun _ _ hw => hw

/-- A collection may be changed to one whose elements all fit. -/
theorem replace_fits (hs : s.Sound) (hc : c.All s.store.Admits) (id : Nat) :
    Ensures Fitted (replace id c) s fun _ t => t = s.mapRealm (·.replace id c) := by
  have hsafe : s.store.SafeAll c.owned := Contents.safeAll_owned.mpr (hc.imp fun _ _ hv => hv.safe)
  have hr : Ensures (Leads ⟨fun _ b => b = .collection c, fun _ => False⟩) (replace id c) s
      fun _ t => t = s.mapRealm (·.replace id c) := replace_ensures hs hsafe rfl
  exact ⟨hr.sound, hr.sound.fitted_of_writes hr.follows hc, hr.result⟩

theorem replaced_fits (hs : s.Sound) (hc : c.All s.store.Admits) (id : Nat) (x : α) :
    Ensures Fitted (do replace id c; return x) s fun _ _ => True :=
  (replace_fits hs hc id).map _

theorem makeCollection_fits (hs : s.Sound) (hc : c.All s.store.Admits) :
    Ensures Fitted (make (.collection c)) s fun h t => t.Holds h := by
  have hsafe : s.store.SafeAll c.owned := Contents.safeAll_owned.mpr (hc.imp fun _ _ hv => hv.safe)
  have hm : Ensures (Leads ⟨fun _ b => b = .collection c, fun _ => False⟩) (make (.collection c)) s
      fun h t => t.Holds h := makeCollection_ensures hs hsafe fun _ _ => rfl
  exact ⟨hm.sound, hm.sound.fitted_of_writes hm.follows hc, hm.result⟩

theorem newCollection_fits (hs : s.Sound) (c : Contents) (hc : c.count = 0) (h : String) :
    Ensures Fitted (do
      let o ← make (.collection c)
      change (·.setHandle h o)
      return Answer.nothing) s fun _ _ => True := by
  apply (makeCollection_fits hs (Contents.all_of_count_eq_zero hc)).bind
  intro o v hv _ ho
  exact ((setHandle_ensures hv h (hv.safe_of_holds ho)).map _).fitted_of_nothing

theorem delivered_fits (hs : s.Sound) (t : ElementType) {v : t.Value} (hv : s.store.Admits t v)
    (target : Option String) (g : View → Answer) :
    Ensures Fitted (do return g (← deliver target (← toObject t v))) s fun _ _ => True :=
  (delivered_element hs t hv.safe target g).fitted_of_nothing

theorem removed_fits (hs : s.Sound) {t : ElementType} {x : t.Value} (hx : s.store.Admits t x)
    (hc : c.All s.store.Admits) (id : Nat) (target : Option String) (g : View → Answer) :
    Ensures Fitted (do
      let o ← toObject t x
      replace id c
      return g (← deliver target o)) s fun _ _ => True := by
  apply (toObject_ensures hs t x hx.safe).bind
  intro o u hu hb ho
  apply (replace_fits hu (hc.imp fun _ _ hv => hv.grows hb.store) id).bind
  intro _ v hv _ hvu
  have ho' : v.Holds o := ho.mono (hvu ▸ List.suffix_rfl)
  exact (delivered hv ho' target g).fitted_of_nothing

/-! What is stored was recovered from an object. -/

theorem element_fits (hs : s.Sound) (t : ElementType) (l : Literal) :
    Ensures Builds (l.element t) s fun v u => u.store.Admits t v :=
  (Literal.build_ensures hs l).bind fun _ _ hu _ hh => .converted hu fun _ hv =>
    Store.admits_ofObject (hu.safe_of_holds hh) hv

theorem admits_ofObjects {t : ElementType} {os : List Handle} {vs : List t.Value} (hs : s.Sound)
    (ho : ∀ o ∈ os, s.Holds o) (hv : t.ofObjects s.store os = .ok vs) :
    ∀ v ∈ vs, s.store.Admits t v := by
  intro v hm
  obtain ⟨o, hom, hov⟩ := ElementType.exists_of_ofObjects hv v hm
  exact Store.admits_ofObject (hs.safe_of_holds (ho o hom)) hov

theorem elements_fit (hs : s.Sound) (t : ElementType) (ls : List Literal) :
    Ensures Builds (Literal.elements t ls) s fun vs u => ∀ v ∈ vs, u.store.Admits t v :=
  (Literal.buildAll_ensures hs ls).bind fun _ _ hu _ ho => .converted hu fun _ hv =>
    admits_ofObjects hu ho hv

theorem elementsOf_fit (hs : s.Sound) (t : ElementType) (source : Source) :
    Ensures Builds (elementsOf t source) s fun vs u => ∀ v ∈ vs, u.store.Admits t v := by
  cases source with
  | literals ls => exact elements_fit hs t ls
  | collection h =>
    apply Ensures.ask
    exact (enumerate_ensures hs _).bind fun _ _ hu _ ho => .converted hu fun _ hv =>
      admits_ofObjects hu ho hv

/-! How the steps begin: a collection is opened, an argument may be built, and only then is the
collection asked for. -/

section

variable {op : Action O} {id : O → Option Nat} {contents : O → Contents}

theorem opened_fits (hf : s.store.Fitting)
    (hop : Ensures Builds op s fun o t => t.Opened h (id o) (contents o))
    {f : O → Nat → Action β}
    (hfit : ∀ o i t, t.Sound → t.Opened h (some i) (contents o) →
      (contents o).All t.store.Admits → Ensures Fitted (f o i) t Q) :
    Ensures Fitted (do let o ← op; f o (← demandId (id o))) s Q := by
  apply hop.bind
  intro o t ht hb ho
  apply Ensures.demandId ht
  intro i hi
  rw [hi] at ho
  exact hfit o i t ht ho (ht.admits_contents (hb.store.fitting hf) ho.2)

theorem argument_fits {ρ : O → Type} {a : (o : O) → Action (ρ o)}
    {P : (o : O) → ρ o → Session → Prop} (hf : s.store.Fitting)
    (hop : Ensures Builds op s fun o t => t.Opened h (id o) (contents o))
    (ha : ∀ o t, t.Sound → Ensures Builds (a o) t (P o)) {f : (o : O) → ρ o → Nat → Action β}
    (hfit : ∀ o x i t, t.Sound → t.Opened h (some i) (contents o) →
      (contents o).All t.store.Admits → P o x t → Ensures Fitted (f o x i) t Q) :
    Ensures Fitted (do let o ← op; let x ← a o; f o x (← demandId (id o))) s Q := by
  apply hop.bind
  intro o t ht hb ho
  apply (ha o t ht).bind
  intro x u hu hb' hx
  apply Ensures.demandId hu
  intro i hi
  rw [hi] at ho
  have ho' := ho.mono hb'
  exact hfit o x i u hu ho' (hu.admits_contents ((hb.trans hb').store.fitting hf) ho'.2) hx

end

theorem listStep_fits (hs : s.Sound) (hf : s.store.Fitting) (step : ListStep) :
    Ensures Fitted (listStep step) s fun _ _ => True := by
  have hopen (h : String) := openList_ensures hs h
  cases step with
  | new h t ls =>
    apply (elements_fit hs t ls).bind
    intro vs u hu _ hvs
    apply (makeCollection_fits (c := .list t vs) hu hvs).bind
    intro o v hv _ ho
    exact ((setHandle_ensures hv h (hv.safe_of_holds ho)).map _).fitted_of_nothing
  | add h l =>
    apply argument_fits hf (hopen h) fun o t ht => element_fits ht o.element l
    intro o x id t ht _ hl hx
    refine replaced_fits ht ?_ id _
    exact List.forall_mem_append.mpr ⟨hl, List.forall_mem_singleton.mpr hx⟩
  | addObject h l =>
    apply argument_fits hf (hopen h) fun o t ht => Literal.build_ensures ht l
    intro o y id t ht _ hl hy
    apply Ensures.convert ht
    intro x hx
    have hx := Store.admits_ofObject (ht.safe_of_holds hy) (ok_of_asCollectionError hx)
    refine replaced_fits ht ?_ id _
    exact List.forall_mem_append.mpr ⟨hl, List.forall_mem_singleton.mpr hx⟩
  | addRange h source =>
    apply argument_fits hf (hopen h) fun o t ht => elementsOf_fit ht o.element source
    intro o xs id t ht _ hl hxs
    refine replaced_fits ht ?_ id _
    exact List.forall_mem_append.mpr ⟨hl, hxs⟩
  | get h i target =>
    apply opened_fits hf (hopen h)
    intro o id t ht _ hl
    apply Ensures.ofResult ht
    intro x hx
    exact delivered_fits ht o.element (hl x (Sequence.mem_of_get hx)) target _
  | removeAt h i target =>
    apply opened_fits hf (hopen h)
    intro o id t ht _ hl
    apply Ensures.ofResult ht
    rintro ⟨x, xs⟩ hx
    obtain ⟨hx, hxs⟩ := Sequence.mem_of_removeAt hx
    refine removed_fits ht (hl x hx) ?_ id target _
    exact fun y hy => hl y (hxs hy)
  | set h i l =>
    apply argument_fits hf (hopen h) fun o t ht => element_fits ht o.element l
    intro o x id t ht _ hl hx
    apply Ensures.ofResult ht
    intro xs hxs
    refine replaced_fits ht ?_ id _
    exact fun y hy => List.forall_mem_cons.mpr ⟨hx, hl⟩ y (Sequence.subset_of_set hxs hy)
  | insert h i l =>
    apply argument_fits hf (hopen h) fun o t ht => element_fits ht o.element l
    intro o x id t ht _ hl hx
    apply Ensures.ofResult ht
    intro xs hxs
    refine replaced_fits ht ?_ id _
    exact fun y hy => List.forall_mem_cons.mpr ⟨hx, hl⟩ y (Sequence.subset_of_insert hxs hy)
  | remove h l =>
    apply argument_fits hf (hopen h) fun o t ht => element_fits ht o.element l
    intro o x id t ht _ hl _
    apply Ensures.get
    split
    · exact .pure ht trivial
    · next xs hxs =>
      refine replaced_fits ht ?_ id _
      exact fun y hy => hl y (Sequence.subset_of_remove? hxs hy)
  | contains h l | indexOf h l =>
    apply argument_fits hf (hopen h) fun o t ht => element_fits ht o.element l
    intro o x id t ht _ _ _
    exact .get (.pure ht trivial)
  | clear h =>
    apply opened_fits hf (hopen h)
    intro o id t ht _ _
    exact replaced_fits ht (Contents.all_of_count_eq_zero rfl) id _
  | count h =>
    apply opened_fits hf (hopen h)
    intro o id t ht _ _
    exact .pure ht trivial
  | toVec h =>
    apply opened_fits hf (hopen h)
    intro o id t ht _ hl
    have hshow := showElements_ensures ht o.element fun x hx => (hl x hx).safe
    exact (hshow.leads.map _).fitted_of_nothing
  | sort h order =>
    apply opened_fits hf (hopen h)
    intro o id t ht ho hl
    apply Ensures.get
    have hp := order.sort_perm t.store o.element o.items
    generalize order.sort t.store o.element o.items = sorted at hp ⊢
    obtain ⟨xs, r⟩ := sorted
    have hxs : (Contents.list o.element xs).All t.store.Admits := fun x hx => hl x (hp.subset hx)
    apply (replace_fits ht hxs id).bind
    intro _ u hu _ hut
    apply Ensures.ofResult hu
    intro _ _
    -- The name keeps the list alive, so that it holds the sorted elements for the reply.
    have hsafe : t.store.SafeAll (Contents.list o.element xs).owned :=
      Contents.safeAll_owned.mpr fun x hx => (hxs x hx).safe
    have hc : u.store.contents? (.object id) = some (.list o.element xs) := by
      rw [hut]
      exact ho.contents?_replace ht rfl hsafe
    have hx := Store.safeAll_list.mp (hu.safeAll_contents hc)
    exact ((showElements_ensures hu o.element hx).leads.map _).fitted_of_nothing

theorem queueStep_fits (hs : s.Sound) (hf : s.store.Fitting) (step : QueueStep) :
    Ensures Fitted (queueStep step) s fun _ _ => True := by
  have hopen (h : String) := openQueue_ensures hs h
  cases step with
  | new h t =>
    exact newCollection_fits hs (.queue t []) rfl h
  | enqueue h l =>
    apply argument_fits hf (hopen h) fun o t ht => element_fits ht o.element l
    intro o x id t ht _ hl hx
    refine replaced_fits ht ?_ id _
    exact List.forall_mem_append.mpr ⟨hl, List.forall_mem_singleton.mpr hx⟩
  | dequeue h target =>
    apply opened_fits hf (hopen h)
    intro o id t ht _ hl
    apply Ensures.ofResult ht
    rintro ⟨x, xs⟩ hx
    obtain ⟨hx, hxs⟩ := Sequence.mem_of_dequeue hx
    refine removed_fits ht (hl x hx) ?_ id target _
    exact fun y hy => hl y (hxs hy)
  | peek h target =>
    apply opened_fits hf (hopen h)
    intro o id t ht _ hl
    apply Ensures.ofResult ht
    intro x hx
    exact delivered_fits ht o.element (hl x (Sequence.mem_of_peek hx)) target _
  | tryDequeue h target =>
    apply opened_fits hf (hopen h)
    intro o id t ht _ hl
    have hl : ∀ x ∈ o.items, t.store.Admits o.element x := hl
    generalize o.items = items at hl ⊢
    cases items with
    | nil => exact .pure ht trivial
    | cons x xs =>
      obtain ⟨hx, hxs⟩ := List.forall_mem_cons.mp hl
      refine removed_fits ht hx ?_ id target _
      exact hxs
  | count h =>
    apply opened_fits hf (hopen h)
    intro o id t ht _ _
    exact .pure ht trivial
  | clear h =>
    apply opened_fits hf (hopen h)
    intro o id t ht _ _
    exact replaced_fits ht (Contents.all_of_count_eq_zero rfl) id _

theorem setStep_fits (hs : s.Sound) (hf : s.store.Fitting) (step : SetStep) :
    Ensures Fitted (setStep step) s fun _ _ => True := by
  have hopen (h : String) := openSet_ensures hs h
  cases step with
  | new h t => exact newCollection_fits hs (.hashSet t []) rfl h
  | add h l =>
    apply argument_fits hf (hopen h) fun o t ht => element_fits ht o.element l
    intro o x id t ht _ hc hx
    apply Ensures.ask
    have hc : Table.All (t.store.Admits o.element) (fun _ => True) o.slots := hc
    refine replaced_fits ht ?_ id _
    exact hc.insert _ hx trivial
  | contains h l =>
    apply argument_fits hf (hopen h) fun o t ht => element_fits ht o.element l
    intro o x id t ht _ _ _
    exact .ask (.pure ht trivial)
  | remove h l =>
    apply argument_fits hf (hopen h) fun o t ht => element_fits ht o.element l
    intro o x id t ht _ hc _
    apply Ensures.ask
    have hc : Table.All (t.store.Admits o.element) (fun _ => True) o.slots := hc
    refine replaced_fits ht ?_ id _
    exact hc.erase _ x
  | union h source =>
    apply argument_fits hf (hopen h) fun o t ht => elementsOf_fit ht o.element source
    intro o xs id t ht _ hc hxs
    apply Ensures.ask
    refine replaced_fits ht ?_ id _
    exact Table.All.insertAll hc _ hxs
  | intersect h source =>
    apply argument_fits hf (hopen h) fun o t ht => elementsOf_fit ht o.element source
    intro o xs id t ht _ hc _
    apply Ensures.ask
    refine replaced_fits ht ?_ id _
    exact Table.All.retain hc _ xs
  | count h =>
    apply opened_fits hf (hopen h)
    intro o id t ht _ _
    exact .pure ht trivial
  | clear h =>
    apply opened_fits hf (hopen h)
    intro o id t ht _ _
    exact replaced_fits ht (Contents.all_of_count_eq_zero rfl) id _
  | toVec h =>
    apply opened_fits hf (hopen h)
    intro o id t ht _ hc
    have hk : ∀ x ∈ o.slots.map Slot.key, t.store.SafeAll (o.element.owned x) :=
      List.forall_mem_map.mpr fun e he => (hc e he).1.safe
    exact ((showElements_ensures ht o.element hk).leads.map _).fitted_of_nothing

/-- A dictionary is opened, and a key and a value are built for it. -/
theorem entry_fits {h : String} {k v : Literal}
    {f : (o : OpenDictionary) → o.key.Value → o.value.Value → Nat → Action β}
    (hs : s.Sound) (hf : s.store.Fitting)
    (hfit : ∀ o key value i t, t.Sound →
      (Contents.dictionary o.key o.value o.slots).All t.store.Admits → t.store.Admits o.key key →
        t.store.Admits o.value value → Ensures Fitted (f o key value i) t Q) :
    Ensures Fitted (do
      let o ← openDictionary h
      let key ← k.element o.key
      let value ← v.element o.value
      f o key value (← demandId o.id)) s Q := by
  apply (openDictionary_ensures hs h).bind
  intro o t ht hb ho
  apply (element_fits ht o.key k).bind
  intro key u hu hb' hk
  apply (element_fits hu o.value v).bind
  intro value w hw hb'' hv
  apply Ensures.demandId hw
  intro i hi
  rw [hi] at ho
  have hfw := ((hb.trans hb').trans hb'').store.fitting hf
  have hc := hw.admits_contents hfw ((ho.mono hb').mono hb'').2
  exact hfit o key value i w hw hc (hk.grows hb''.store) hv

theorem dictionaryStep_fits (hs : s.Sound) (hf : s.store.Fitting) (step : DictionaryStep) :
    Ensures Fitted (dictionaryStep step) s fun _ _ => True := by
  have hopen (h : String) := openDictionary_ensures hs h
  have hsafe {t : Session} {o : OpenDictionary}
      (hc : (Contents.dictionary o.key o.value o.slots).All t.store.Admits) :
      t.store.AllEntriesSafe o := fun e he => ⟨(hc e he).1.safe, (hc e he).2.safe⟩
  cases step with
  | new h k v => exact newCollection_fits hs (.dictionary k v []) rfl h
  | add h k v =>
    apply entry_fits hs hf
    intro o key value id t ht hc hk hv
    apply Ensures.ask
    split
    · exact .query ht fun _ _ => .throw ht _
    · refine replaced_fits ht ?_ id _
      exact Table.All.insert hc _ hk hv
  | set h k v =>
    apply entry_fits hs hf
    intro o key value id t ht hc hk hv
    apply Ensures.ask
    apply (foundValue_ensures ht (hsafe hc) _ key).bind
    intro old u hu hb _
    have hi : (Contents.dictionary o.key o.value _).All t.store.Admits :=
      Table.All.insert hc (o.key.keying t.store) hk hv
    apply (replace_fits hu (hi.imp fun _ _ hv => hv.grows hb.store) id).bind
    intro _ w hw _ _
    exact (showOptional_ensures hw old).fitted_of_nothing
  | get h k target =>
    apply argument_fits hf (hopen h) fun o t ht => element_fits ht o.key k
    intro o key id t ht _ hc _
    apply Ensures.ask
    split
    · next value hv => exact delivered_fits ht o.value (Table.All.get? hc hv) target _
    · exact .query ht fun _ _ => .throw ht _
  | tryGet h k =>
    apply argument_fits hf (hopen h) fun o t ht => element_fits ht o.key k
    intro o key id t ht _ hc _
    apply Ensures.ask
    apply (foundValue_ensures ht (hsafe hc) _ key).bind
    intro value u hu _ _
    exact (showOptional_ensures hu value).fitted_of_nothing
  | containsKey h k =>
    apply argument_fits hf (hopen h) fun o t ht => element_fits ht o.key k
    intro o key id t ht _ _ _
    exact .ask (.pure ht trivial)
  | containsValue h v =>
    apply argument_fits hf (hopen h) fun o t ht => element_fits ht o.value v
    intro o value id t ht _ _ _
    exact .get (.pure ht trivial)
  | remove h k =>
    apply argument_fits hf (hopen h) fun o t ht => element_fits ht o.key k
    intro o key id t ht _ hc _
    apply Ensures.ask
    refine replaced_fits ht ?_ id _
    exact Table.All.erase hc _ key
  | keys h =>
    apply opened_fits hf (hopen h)
    intro o id t ht _ hc
    have hk : ∀ x ∈ o.slots.map Slot.key, t.store.SafeAll (o.key.owned x) :=
      List.forall_mem_map.mpr fun e he => (hc e he).1.safe
    exact ((showElements_ensures ht o.key hk).leads.map _).fitted_of_nothing
  | values h =>
    apply opened_fits hf (hopen h)
    intro o id t ht _ hc
    have hv : ∀ x ∈ o.slots.map Slot.value, t.store.SafeAll (o.value.owned x) :=
      List.forall_mem_map.mpr fun e he => (hc e he).2.safe
    exact ((showElements_ensures ht o.value hv).leads.map _).fitted_of_nothing
  | count h =>
    apply opened_fits hf (hopen h)
    intro o id t ht _ _
    exact .pure ht trivial
  | clear h =>
    apply opened_fits hf (hopen h)
    intro o id t ht _ _
    exact replaced_fits ht (Contents.all_of_count_eq_zero rfl) id _

/-- Steps on other objects change no collection. -/
theorem step_fits (hs : s.Sound) (hf : s.store.Fitting) (step : Step) :
    Ensures Fitted (Action.step step) s fun _ _ => True := by
  cases step with
  | handle step => exact (handleStep_ensures hs step).fitted fun _ _ hw => hw
  | type step => exact (typeStep_ensures hs step).fitted_of_nothing
  | enumeration step => exact (enumStep_ensures hs step).fitted_of_nothing
  | activator step => exact (activatorStep_ensures hs step).fitted_of_nothing
  | list step => exact listStep_fits hs hf step
  | queue step => exact queueStep_fits hs hf step
  | set step => exact setStep_fits hs hf step
  | dictionary step => exact dictionaryStep_fits hs hf step

end Action

namespace Session

variable {s : Session}

theorem Settled.fitting_advance (hs : s.Settled) (hf : s.store.Fitting) (step : Step) :
    (s.advance step).2.store.Fitting := by
  have ht := (advance_settled hs step).1.sound
  let u := (Action.step step s).2
  have hend : u.store.Spares (fun _ _ => False) u.endStep.store := spares_endStep u
  exact hend.fitting (fun _ _ hc => ht.all_fits u.precedes_endStep hc) (fun _ _ _ hw => hw.elim)
    ((Action.step_fits hs.sound hf step).follows hf)

theorem Settled.fitting_advanceAll (hs : s.Settled) (hf : s.store.Fitting) (steps : List Step) :
    (s.advanceAll steps).2.store.Fitting := by
  induction steps generalizing s with
  | nil => exact hf
  | cons step steps ih => exact ih (advance_settled hs step).1 (hs.fitting_advance hf step)

theorem start_fitting : start.store.Fitting := by
  obtain ⟨d, hd⟩ : ∃ d, start.store = .empty d := ⟨_, rfl⟩
  intro id c hc
  rw [hd] at hc
  cases hc

/-- After any steps, all elements of all collections fit their types. -/
theorem run_fitting (steps : List Step) : (start.advanceAll steps).2.store.Fitting :=
  start_settled.fitting_advanceAll start_fitting steps

end Session

end CountedObjects
