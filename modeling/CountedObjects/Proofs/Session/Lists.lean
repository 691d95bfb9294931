import CountedObjects.Proofs.Collection.Sorting
import CountedObjects.Proofs.Session.Handles
import CountedObjects.Session.Lists

/-! Steps on lists and queues keep a session sound. What a collection is given to hold are elements
that it held when it was opened or elements that the step has built. No other objects are changed
than the list or queue that the step is about. -/
namespace CountedObjects

/-- The name of the list that a step changes. -/
def ListStep.changes? : ListStep → Option String
  | add h _ | addObject h _ | addRange h _ | removeAt h _ _ | set h _ _ | insert h _ _ | remove h _
  | clear h | sort h _ => some h
  | _ => none

/-- A step makes a new list or changes the one that its name points to. -/
def ListStep.scope (s : Session) (step : ListStep) : Scope where
  objects id b := (s.store.cells.size ≤ id ∨ step.changes?.map s.handle = some (.object id)) ∧
    ∃ t xs, b = .collection (.list t xs)
  enumerators _ := False

/-- The name of the queue that a step changes. -/
def QueueStep.changes? : QueueStep → Option String
  | enqueue h _ | dequeue h _ | tryDequeue h _ | clear h => some h
  | _ => none

/-- A step changes the queue that its name points to. -/
def QueueStep.scope (s : Session) (step : QueueStep) : Scope where
  objects id b := step.changes?.map s.handle = some (.object id) ∧
    ∃ t xs, b = .collection (.queue t xs)
  enumerators _ := False

theorem ListStep.scope_objects {s : Session} {step : ListStep} {h : String} {id : Nat}
    (hc : step.changes? = some h) (hid : s.handle h = .object id) (t : ElementType)
    (xs : List t.Value) : (step.scope s).objects id (.collection (.list t xs)) :=
  ⟨.inr (by rw [hc, Option.map_some, hid]), t, xs, rfl⟩

theorem QueueStep.scope_objects {s : Session} {step : QueueStep} {h : String} {id : Nat}
    (hc : step.changes? = some h) (hid : s.handle h = .object id) (t : ElementType)
    (xs : List t.Value) : (step.scope s).objects id (.collection (.queue t xs)) :=
  ⟨by rw [hc, Option.map_some, hid], t, xs, rfl⟩

open Session (Leads Builds)

/-! The elements of a changed sequence. -/
namespace Sequence

variable {α : Type} {xs ys : List α} {i : Nat} {x : α}

theorem mem_of_get (h : get xs i = .ok x) : x ∈ xs := by
  unfold get at h
  split at h
  · next y hy =>
    cases h
    exact List.mem_of_getElem? hy
  · cases h

theorem subset_of_set (h : set xs i x = .ok ys) : ys ⊆ x :: xs := by
  unfold set at h
  split at h
  · cases h
    exact fun y hy => List.mem_cons.mpr (List.mem_or_eq_of_mem_set hy).symm
  · cases h

theorem subset_of_insert (h : insert xs i x = .ok ys) : ys ⊆ x :: xs := by
  unfold insert at h
  split at h
  · next hi =>
    cases h
    exact fun y hy => List.mem_cons.mpr ((List.mem_insertIdx hi).mp hy)
  · cases h

theorem mem_of_removeAt (h : removeAt xs i = .ok (x, ys)) : x ∈ xs ∧ ys ⊆ xs := by
  unfold removeAt at h
  split at h
  · next y hy =>
    cases h
    exact ⟨List.mem_of_getElem? hy, fun _ => List.mem_of_mem_eraseIdx⟩
  · cases h

theorem subset_of_remove? {same : α → α → Bool} (h : remove? same x xs = some ys) : ys ⊆ xs := by
  obtain ⟨i, -, rfl⟩ := Option.map_eq_some_iff.mp h
  exact fun _ => List.mem_of_mem_eraseIdx

theorem mem_of_dequeue (h : dequeue xs = .ok (x, ys)) : x ∈ xs ∧ ys ⊆ xs := by
  cases xs with
  | nil => cases h
  | cons y ys =>
    cases h
    exact ⟨List.mem_cons_self .., List.subset_cons_self ..⟩

theorem mem_of_peek (h : peek xs = .ok x) : x ∈ xs := by
  cases xs with
  | nil => cases h
  | cons y ys =>
    cases h
    exact List.mem_cons_self ..

end Sequence

variable {s t : Session} {h : String} {id : Option Nat} {c : Contents}

namespace Store

theorem safeAll_flatMap {α : Type} {s : Store} {f : α → List Handle} {xs : List α} :
    s.SafeAll (xs.flatMap f) ↔ ∀ x ∈ xs, s.SafeAll (f x) := by
  simp only [SafeAll, List.mem_flatMap]
  constructor
  · exact fun h x hx y hy => h y ⟨x, hx, hy⟩
  · rintro h y ⟨x, hx, hy⟩
    exact h x hx y hy

theorem safeAll_list {s : Store} {t : ElementType} {xs : List t.Value} :
    s.SafeAll (Contents.list t xs).owned ↔ ∀ x ∈ xs, s.SafeAll (t.owned x) :=
  safeAll_flatMap

theorem safeAll_queue {s : Store} {t : ElementType} {xs : List t.Value} :
    s.SafeAll (Contents.queue t xs).owned ↔ ∀ x ∈ xs, s.SafeAll (t.owned x) :=
  safeAll_flatMap

end Store

/-- A step works on the collection that a name points to, or on no object and no elements. -/
def Session.Opened (s : Session) (h : String) (id : Option Nat) (c : Contents) : Prop :=
  match id with
  | some id => s.handle h = .object id ∧ s.store.contents? (.object id) = some c
  | none => c.owned = []

namespace Session.Opened

/-- Building elements does not touch the collection. -/
theorem mono (ho : s.Opened h id c) (hb : s.Builds t) : t.Opened h id c := by
  cases id with
  | none => exact ho
  | some id => exact ⟨(hb.handle h).trans ho.1, hb.store.contents? ho.2⟩

/-- The name pointed to the collection before anything was built. -/
theorem handle_of_builds (ho : t.Opened h id c) (hb : s.Builds t) {i : Nat} (hi : id = some i) :
    s.handle h = .object i := by
  subst hi
  exact (hb.handle h).symm.trans ho.1

theorem safeAll (ho : s.Opened h id c) (hs : s.Sound) : s.store.SafeAll c.owned := by
  cases id with
  | none =>
    have hn : c.owned = [] := ho
    rw [hn]
    exact s.store.safeAll_nil
  | some id => exact hs.safeAll_contents ho.2

theorem safeAll_list {t : ElementType} {xs : List t.Value} (ho : s.Opened h id (.list t xs))
    (hs : s.Sound) : ∀ x ∈ xs, s.store.SafeAll (t.owned x) :=
  Store.safeAll_list.mp (ho.safeAll hs)

theorem safeAll_queue {t : ElementType} {xs : List t.Value} (ho : s.Opened h id (.queue t xs))
    (hs : s.Sound) : ∀ x ∈ xs, s.store.SafeAll (t.owned x) :=
  Store.safeAll_flatMap.mp (ho.safeAll hs)

/-- A collection that a name points to holds what it is given. -/
theorem contents?_replace {i : Nat} {x : Contents} (ho : s.Opened h (some i) c) (hs : s.Sound)
    (hk : c.kind = x.kind) (hx : s.store.SafeAll x.owned) :
    (s.mapRealm (·.replace i x)).store.contents? (.object i) = some x := by
  have hroot : .object i ∈ s.roots := by
    rw [← ho.1]
    apply (s.handle_mem_roots h).resolve_left
    intro hn
    exact Handle.noConfusion (hn.symm.trans ho.1)
  exact Store.Sound.contents?_replace hs ho.2 hk hx hroot

end Session.Opened

theorem Session.Sound.safeAll_of_holds {hs : List Handle} (h : s.Sound)
    (hh : ∀ x ∈ hs, s.Holds x) : s.store.SafeAll hs :=
  fun x hx => h.safe_of_holds (hh x hx)

namespace Action

variable {α β : Type} {R : Session → Session → Prop} {Q : β → Session → Prop} {scope : Scope}

theorem Ensures.demandId [Std.Refl R] {f : Nat → Action β} (hs : s.Sound)
    (hf : ∀ i, id = some i → Ensures R (f i) s Q) : Ensures R (demandId id >>= f) s Q := by
  cases id with
  | none => exact .throw hs _
  | some i => exact hf i rfl

theorem openList_ensures (hs : s.Sound) (h : String) :
    Ensures Builds (openList h) s fun l t => t.Opened h l.id (.list l.element l.items) := by
  apply Ensures.ask
  apply Ensures.ask
  split
  · next id t xs ho hc => exact .pure hs ⟨ho, ho ▸ hc⟩
  · exact .cast hs fun _ _ => .pure hs rfl

theorem openQueue_ensures (hs : s.Sound) (h : String) :
    Ensures Builds (openQueue h) s fun q t => t.Opened h q.id (.queue q.element q.items) := by
  apply Ensures.ask
  apply Ensures.ask
  split
  · next id t xs ho hc => exact .pure hs ⟨ho, ho ▸ hc⟩
  · exact .cast hs fun _ _ => .pure hs rfl

/-- A step may end with a change of a collection. -/
theorem replaced (hs : s.Sound) (hc : s.store.SafeAll c.owned) {id : Nat}
    (hw : scope.objects id (.collection c)) (x : α) :
    Ensures (Leads scope) (do replace id c; return x) s fun _ _ => True :=
  (replace_ensures hs hc hw).map _

/-- A step may end with an object that it gives out. -/
theorem delivered (hs : s.Sound) {o : Handle} (ho : s.Holds o) (target : Option String)
    (g : View → Answer) :
    Ensures (Leads scope) (do return g (← deliver target o)) s fun _ _ => True :=
  (deliver_ensures hs (hs.safe_of_holds ho) target).map _

theorem delivered_element (hs : s.Sound) (t : ElementType) {v : t.Value}
    (hv : s.store.SafeAll (t.owned v)) (target : Option String) (g : View → Answer) :
    Ensures (Leads scope) (do return g (← deliver target (← toObject t v))) s fun _ _ => True :=
  (toObject_ensures hs t v hv).bind fun _ _ ht _ ho => delivered ht ho target g

/-- A step may end with a change of a collection and an element that the collection held before. -/
theorem removed (hs : s.Sound) {t : ElementType} {x : t.Value} (hx : s.store.SafeAll (t.owned x))
    (hc : s.store.SafeAll c.owned) {id : Nat} (hw : scope.objects id (.collection c))
    (target : Option String) (g : View → Answer) :
    Ensures (Leads scope) (do
      let o ← toObject t x
      replace id c
      return g (← deliver target o)) s fun _ _ => True := by
  apply (toObject_ensures hs t x hx).bind
  intro o u hu hb ho
  apply (replace_ensures hu (fun y hy => hb.store.safe (hc y hy)) hw).andThen
  intro _ v hv hl _
  exact delivered hv (ho.mono hl.held) target g

theorem element_ensures (hs : s.Sound) (t : ElementType) (l : Literal) :
    Ensures Builds (l.element t) s fun v u => u.store.SafeAll (t.owned v) :=
  (Literal.element_ensures hs t l).mono_sound fun _ _ hu hv => hu.safeAll_of_holds hv

theorem ok_of_asCollectionError {r : Result α} {x : α} (h : asCollectionError r = .ok x) :
    r = .ok x := by
  unfold asCollectionError at h
  split at h
  · cases h
  · exact h

theorem elementsOf_ensures (hs : s.Sound) (t : ElementType) (source : Source) :
    Ensures Builds (elementsOf t source) s fun vs u => ∀ v ∈ vs, u.store.SafeAll (t.owned v) := by
  cases source with
  | literals ls =>
    apply (Literal.elements_ensures hs t ls).mono_sound
    intro vs u hu hvs
    exact Store.safeAll_flatMap.mp (hu.safeAll_of_holds hvs)
  | collection h =>
    apply Ensures.ask
    apply (enumerate_ensures hs _).bind
    intro o u hu _ ho
    apply Ensures.converted hu
    intro vs hv
    have hvs : ∀ x ∈ vs.flatMap t.owned, u.Holds x :=
      fun x hx => ho x (ElementType.owned_ofObjects hv x hx)
    exact Store.safeAll_flatMap.mp (hu.safeAll_of_holds hvs)

theorem showElements_ensures (hs : s.Sound) (t : ElementType) {vs : List t.Value}
    (hv : ∀ v ∈ vs, s.store.SafeAll (t.owned v)) :
    Ensures Builds (showElements t vs) s fun _ _ => True := by
  have hobjects : Ensures Builds (vs.mapM (toObject t)) s fun os _ => ∀ o ∈ os, True := by
    apply Ensures.mapM hs
    · exact fun _ _ _ _ h => h
    · intro v hm u hu hb
      have hsafe : u.store.SafeAll (t.owned v) := fun x hx => hb.store.safe (hv v hm x hx)
      exact (toObject_ensures hu t v hsafe).mono fun _ _ _ => trivial
  exact hobjects.bind fun os u hu _ _ => .reads hu (views_reads os)

/-! How the steps begin: a collection is opened, an element may be built, and only then is the
collection asked for. -/

theorem fromList {f : OpenSequence → Nat → Action β} (hs : s.Sound) (h : String)
    (hf : ∀ o id t, t.Sound → s.handle h = .object id →
      t.Opened h (some id) (.list o.element o.items) → Ensures (Leads scope) (f o id) t Q) :
    Ensures (Leads scope) (do let o ← openList h; f o (← demandId o.id)) s Q := by
  apply (openList_ensures hs h).bind
  intro o t ht hb ho
  apply Ensures.demandId ht
  intro id hid
  exact hf o id t ht (ho.handle_of_builds hb hid) (hid ▸ ho)

theorem fromListAndElement {f : (o : OpenSequence) → o.element.Value → Nat → Action β}
    (hs : s.Sound) (h : String) (l : Literal)
    (hf : ∀ o x id t, t.Sound → s.handle h = .object id →
      (∀ y ∈ x :: o.items, t.store.SafeAll (o.element.owned y)) →
        Ensures (Leads scope) (f o x id) t Q) :
    Ensures (Leads scope) (do
      let o ← openList h
      let x ← l.element o.element
      f o x (← demandId o.id)) s Q := by
  apply (openList_ensures hs h).bind
  intro o t ht hst ho
  apply (element_ensures ht o.element l).bind
  intro x u hu hb hx
  apply Ensures.demandId hu
  intro id hid
  have hl := (ho.mono hb).safeAll_list hu
  exact hf o x id u hu (ho.handle_of_builds hst hid) (List.forall_mem_cons.mpr ⟨hx, hl⟩)

theorem fromQueue {f : OpenSequence → Nat → Action β} (hs : s.Sound) (h : String)
    (hf : ∀ o id t, t.Sound → s.handle h = .object id →
      t.Opened h (some id) (.queue o.element o.items) → Ensures (Leads scope) (f o id) t Q) :
    Ensures (Leads scope) (do let o ← openQueue h; f o (← demandId o.id)) s Q := by
  apply (openQueue_ensures hs h).bind
  intro o t ht hb ho
  apply Ensures.demandId ht
  intro id hid
  exact hf o id t ht (ho.handle_of_builds hb hid) (hid ▸ ho)

theorem listStep_ensures (hs : s.Sound) (step : ListStep) :
    Ensures (Leads (step.scope s)) (listStep step) s fun _ _ => True := by
  cases step with
  | new h t ls =>
    apply (Literal.elements_ensures hs t ls).bind
    intro vs u hu hb hvs
    have hc : u.store.SafeAll (Contents.list t vs).owned := hu.safeAll_of_holds hvs
    have hw : ∀ id, u.store.cells.size ≤ id →
        ((ListStep.new h t ls).scope s).objects id (.collection (.list t vs)) :=
      fun _ hge => ⟨.inl (Nat.le_trans hb.store.size_le hge), t, vs, rfl⟩
    apply (makeCollection_ensures hu hc hw).andThen
    intro o v hv _ ho
    exact (setHandle_ensures hv h (hv.safe_of_holds ho)).map _
  | add h l =>
    apply fromListAndElement hs h l
    intro o x id t ht hid hl
    obtain ⟨hx, hl⟩ := List.forall_mem_cons.mp hl
    have hxs : ∀ y ∈ o.items ++ [x], t.store.SafeAll (o.element.owned y) :=
      List.forall_mem_append.mpr ⟨hl, List.forall_mem_singleton.mpr hx⟩
    exact replaced ht (Store.safeAll_list.mpr hxs) (ListStep.scope_objects rfl hid ..) _
  | addObject h l =>
    apply (openList_ensures hs h).bind
    intro o t ht hst ho
    apply (Literal.build_ensures ht l).bind
    intro y u hu hb hy
    apply Ensures.demandId hu
    intro id hid
    have hid := ho.handle_of_builds hst hid
    apply Ensures.convert hu
    intro x hx
    have hl := (ho.mono hb).safeAll_list hu
    have hx : u.store.SafeAll (o.element.owned x) := by
      intro z hz
      rw [o.element.owned_ofObject x (ok_of_asCollectionError hx) z hz]
      exact hu.safe_of_holds hy
    have hxs : ∀ y ∈ o.items ++ [x], u.store.SafeAll (o.element.owned y) :=
      List.forall_mem_append.mpr ⟨hl, List.forall_mem_singleton.mpr hx⟩
    exact replaced hu (Store.safeAll_list.mpr hxs) (ListStep.scope_objects rfl hid ..) _
  | addRange h source =>
    apply (openList_ensures hs h).bind
    intro o t ht hst ho
    apply (elementsOf_ensures ht o.element source).bind
    intro xs u hu hb hxs
    apply Ensures.demandId hu
    intro id hid
    have hid := ho.handle_of_builds hst hid
    have hl := (ho.mono hb).safeAll_list hu
    have hxs : ∀ y ∈ o.items ++ xs, u.store.SafeAll (o.element.owned y) :=
      List.forall_mem_append.mpr ⟨hl, hxs⟩
    exact replaced hu (Store.safeAll_list.mpr hxs) (ListStep.scope_objects rfl hid ..) _
  | get h i target =>
    apply fromList hs h
    intro o id t ht _ ho
    apply Ensures.ofResult ht
    intro x hx
    have hx := ho.safeAll_list ht x (Sequence.mem_of_get hx)
    exact delivered_element ht o.element hx target _
  | removeAt h i target =>
    apply fromList hs h
    intro o id t ht hid ho
    apply Ensures.ofResult ht
    rintro ⟨x, xs⟩ hx
    obtain ⟨hx, hxs⟩ := Sequence.mem_of_removeAt hx
    have hl := ho.safeAll_list ht
    have hc : t.store.SafeAll (Contents.list o.element xs).owned :=
      Store.safeAll_list.mpr fun y hy => hl y (hxs hy)
    exact removed ht (hl x hx) hc (ListStep.scope_objects rfl hid ..) target _
  | set h i l =>
    apply fromListAndElement hs h l
    intro o x id t ht hid hl
    apply Ensures.ofResult ht
    intro xs hxs
    have hxs : ∀ y ∈ xs, t.store.SafeAll (o.element.owned y) :=
      fun y hy => hl y (Sequence.subset_of_set hxs hy)
    exact replaced ht (Store.safeAll_list.mpr hxs) (ListStep.scope_objects rfl hid ..) _
  | insert h i l =>
    apply fromListAndElement hs h l
    intro o x id t ht hid hl
    apply Ensures.ofResult ht
    intro xs hxs
    have hxs : ∀ y ∈ xs, t.store.SafeAll (o.element.owned y) :=
      fun y hy => hl y (Sequence.subset_of_insert hxs hy)
    exact replaced ht (Store.safeAll_list.mpr hxs) (ListStep.scope_objects rfl hid ..) _
  | remove h l =>
    apply fromListAndElement hs h l
    intro o x id t ht hid hl
    apply Ensures.get
    split
    · exact .pure ht trivial
    · next xs hxs =>
      have hsub := Sequence.subset_of_remove? hxs
      have hxs : ∀ y ∈ xs, t.store.SafeAll (o.element.owned y) :=
        fun y hy => hl y (List.mem_cons_of_mem _ (hsub hy))
      exact replaced ht (Store.safeAll_list.mpr hxs) (ListStep.scope_objects rfl hid ..) _
  | contains h l | indexOf h l =>
    apply fromListAndElement hs h l
    intro o x id t ht _ _
    exact .get (.pure ht trivial)
  | clear h =>
    apply fromList hs h
    intro o id t ht hid _
    have hc : t.store.SafeAll (Contents.list o.element []).owned := t.store.safeAll_nil
    exact replaced ht hc (ListStep.scope_objects rfl hid ..) _
  | count h =>
    apply fromList hs h
    intro o id t ht _ _
    exact .pure ht trivial
  | toVec h =>
    apply fromList hs h
    intro o id t ht _ ho
    have hl := ho.safeAll_list ht
    exact (showElements_ensures ht o.element hl).leads.map _
  | sort h order =>
    apply fromList hs h
    intro o id t ht hid ho
    apply Ensures.get
    have hp := order.sort_perm t.store o.element o.items
    generalize order.sort t.store o.element o.items = sorted at hp ⊢
    obtain ⟨xs, r⟩ := sorted
    have hl := ho.safeAll_list ht
    have hxs : t.store.SafeAll (Contents.list o.element xs).owned :=
      Store.safeAll_list.mpr fun x hx => hl x (hp.subset hx)
    apply (replace_ensures ht hxs (ListStep.scope_objects rfl hid ..)).andThen
    intro _ u hu _ hut
    apply Ensures.ofResult hu
    intro _ _
    -- The name keeps the list alive, so that it holds the sorted elements for the reply.
    have hc : u.store.contents? (.object id) = some (.list o.element xs) := by
      rw [hut]
      exact ho.contents?_replace ht rfl hxs
    have hx := Store.safeAll_list.mp (hu.safeAll_contents hc)
    exact (showElements_ensures hu o.element hx).leads.map _

theorem queueStep_ensures (hs : s.Sound) (step : QueueStep) :
    Ensures (Leads (step.scope s)) (queueStep step) s fun _ _ => True := by
  cases step with
  | new h t =>
    have hb : (Body.collection (.queue t [])).IsEmpty := ⟨rfl, rfl⟩
    apply (make_ensures_of_isEmpty hs hb).bind
    intro o v hv _ ho
    exact (setHandle_ensures hv h (hv.safe_of_holds ho)).map _
  | enqueue h l =>
    apply (openQueue_ensures hs h).bind
    intro o t ht hst ho
    apply (element_ensures ht o.element l).bind
    intro x u hu hb hx
    apply Ensures.demandId hu
    intro id hid
    have hid := ho.handle_of_builds hst hid
    have hl := (ho.mono hb).safeAll_queue hu
    have hxs : ∀ y ∈ o.items ++ [x], u.store.SafeAll (o.element.owned y) :=
      List.forall_mem_append.mpr ⟨hl, List.forall_mem_singleton.mpr hx⟩
    exact replaced hu (Store.safeAll_queue.mpr hxs) (QueueStep.scope_objects rfl hid ..) _
  | dequeue h target =>
    apply fromQueue hs h
    intro o id t ht hid ho
    apply Ensures.ofResult ht
    rintro ⟨x, xs⟩ hx
    obtain ⟨hx, hxs⟩ := Sequence.mem_of_dequeue hx
    have hl := ho.safeAll_queue ht
    have hc : t.store.SafeAll (Contents.queue o.element xs).owned :=
      Store.safeAll_queue.mpr fun y hy => hl y (hxs hy)
    exact removed ht (hl x hx) hc (QueueStep.scope_objects rfl hid ..) target _
  | peek h target =>
    apply fromQueue hs h
    intro o id t ht _ ho
    apply Ensures.ofResult ht
    intro x hx
    have hx := ho.safeAll_queue ht x (Sequence.mem_of_peek hx)
    exact delivered_element ht o.element hx target _
  | tryDequeue h target =>
    apply fromQueue hs h
    intro o id t ht hid ho
    have hl := ho.safeAll_queue ht
    generalize o.items = items at hl ⊢
    cases items with
    | nil => exact .pure ht trivial
    | cons x xs =>
      obtain ⟨hx, hxs⟩ := List.forall_mem_cons.mp hl
      have hc : t.store.SafeAll (Contents.queue o.element xs).owned :=
        Store.safeAll_queue.mpr hxs
      exact removed ht hx hc (QueueStep.scope_objects rfl hid ..) target _
  | count h =>
    apply fromQueue hs h
    intro o id t ht _ _
    exact .pure ht trivial
  | clear h =>
    apply fromQueue hs h
    intro o id t ht hid _
    have hc : t.store.SafeAll (Contents.queue o.element []).owned := t.store.safeAll_nil
    exact replaced ht hc (QueueStep.scope_objects rfl hid ..) _

end Action

end CountedObjects
