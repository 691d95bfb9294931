import CountedObjects.Proofs.Session.Lists
import CountedObjects.Session.Tables

/-! Steps on hash sets and dictionaries keep a session sound. A step changes no other object than
the table that its own name points to. -/
namespace CountedObjects

/-- The name of the set that a step changes. -/
def SetStep.changes? : SetStep → Option String
  | add h _ | remove h _ | union h _ | intersect h _ | clear h => some h
  | _ => none

/-- The name of the dictionary that a step changes. -/
def DictionaryStep.changes? : DictionaryStep → Option String
  | add h _ _ | set h _ _ | remove h _ | clear h => some h
  | _ => none

def SetStep.scope (s : Session) (step : SetStep) : Scope where
  objects id b := step.changes?.map s.handle = some (.object id) ∧
    ∃ t ss, b = .collection (.hashSet t ss)
  enumerators _ := False

def DictionaryStep.scope (s : Session) (step : DictionaryStep) : Scope where
  objects id b := step.changes?.map s.handle = some (.object id) ∧
    ∃ k v ss, b = .collection (.dictionary k v ss)
  enumerators _ := False

theorem SetStep.scope_objects {s : Session} {step : SetStep} {h : String} {id : Nat}
    (hc : step.changes? = some h) (hid : s.handle h = .object id) (t : ElementType)
    (ss : List (Slot t.Value Unit)) : (step.scope s).objects id (.collection (.hashSet t ss)) :=
  ⟨by rw [hc, Option.map_some, hid], t, ss, rfl⟩

theorem DictionaryStep.scope_objects {s : Session} {step : DictionaryStep} {h : String} {id : Nat}
    (hc : step.changes? = some h) (hid : s.handle h = .object id) (k v : ElementType)
    (ss : List (Slot k.Value v.Value)) :
    (step.scope s).objects id (.collection (.dictionary k v ss)) :=
  ⟨by rw [hc, Option.map_some, hid], k, v, ss, rfl⟩

namespace Table

variable {κ ν : Type} {K : κ → Prop} {V : ν → Prop} {t : List (Slot κ ν)}

/-- All keys and all values of a table have a property. -/
def All (K : κ → Prop) (V : ν → Prop) (t : List (Slot κ ν)) : Prop :=
  ∀ s ∈ t, K s.key ∧ V s.value

theorem all_nil : All K V ([] : List (Slot κ ν)) := fun _ hs => absurd hs List.not_mem_nil

theorem All.insert (ht : All K V t) (q : Keying κ) {k : κ} {v : ν} (hk : K k) (hv : V v) :
    All K V (insert q k v t) := by
  induction t with
  | nil => exact List.forall_mem_singleton.mpr ⟨hk, hv⟩
  | cons s t ih =>
    obtain ⟨hs, ht⟩ := List.forall_mem_cons.mp ht
    unfold Table.insert
    split
    · exact List.forall_mem_cons.mpr ⟨⟨hs.1, hv⟩, ht⟩
    · exact List.forall_mem_cons.mpr ⟨hs, ih ht⟩

theorem All.erase (ht : All K V t) (q : Keying κ) (k : κ) : All K V (erase q k t) :=
  fun s hs => ht s (List.mem_of_mem_eraseP hs)

theorem All.get? (ht : All K V t) {q : Keying κ} {k : κ} {v : ν} (hv : get? q k t = some v) :
    V v := by
  obtain ⟨s, hs, rfl⟩ := Option.map_eq_some_iff.mp hv
  exact (ht s (List.mem_of_find?_eq_some hs)).2

theorem All.insertAll {t : List (Slot κ Unit)} (ht : All K (fun _ => True) t) (q : Keying κ)
    {ks : List κ} (hks : ∀ k ∈ ks, K k) : All K (fun _ => True) (insertAll q t ks) := by
  induction ks generalizing t with
  | nil => exact ht
  | cons k ks ih =>
    obtain ⟨hk, hks⟩ := List.forall_mem_cons.mp hks
    exact ih (ht.insert q hk trivial) hks

theorem All.retain {t : List (Slot κ Unit)} (ht : All K (fun _ => True) t) (q : Keying κ)
    (ks : List κ) : All K (fun _ => True) (retain q t ks) :=
  fun s hs => ht s ((List.mem_filter.mp hs).1)

end Table

variable {s t : Session} {h : String} {id : Option Nat} {c : Contents}

open Session (Leads Builds)

namespace Store

theorem safeAll_append {s : Store} {hs hs' : List Handle} :
    s.SafeAll (hs ++ hs') ↔ s.SafeAll hs ∧ s.SafeAll hs' :=
  List.forall_mem_append

/-- All elements of an opened set may be held. -/
def AllSafe (s : Store) (o : OpenSet) : Prop :=
  Table.All (fun x => s.SafeAll (o.element.owned x)) (fun _ => True) o.slots

/-- All keys and values of an opened dictionary may be held. -/
def AllEntriesSafe (s : Store) (o : OpenDictionary) : Prop :=
  Table.All (fun k => s.SafeAll (o.key.owned k)) (fun v => s.SafeAll (o.value.owned v)) o.slots

theorem safeAll_hashSet {s : Store} {t : ElementType} {ss : List (Slot t.Value Unit)} :
    s.SafeAll (Contents.hashSet t ss).owned ↔
      Table.All (fun k => s.SafeAll (t.owned k)) (fun _ => True) ss := by
  simp only [Contents.owned, safeAll_flatMap, Table.All, and_true]

theorem safeAll_dictionary {s : Store} {k v : ElementType} {ss : List (Slot k.Value v.Value)} :
    s.SafeAll (Contents.dictionary k v ss).owned ↔
      Table.All (fun x => s.SafeAll (k.owned x)) (fun x => s.SafeAll (v.owned x)) ss := by
  simp only [Contents.owned, safeAll_flatMap, Table.All, safeAll_append]

end Store

namespace Action

variable {α β : Type} {R : Session → Session → Prop} {Q : β → Session → Prop} {scope : Scope}

theorem openSet_ensures (hs : s.Sound) (h : String) :
    Ensures Builds (openSet h) s fun c t => t.Opened h c.id (.hashSet c.element c.slots) := by
  apply Ensures.ask
  apply Ensures.ask
  split
  · next id t ss ho hc => exact .pure hs ⟨ho, ho ▸ hc⟩
  · exact .cast hs fun _ _ => .pure hs rfl

theorem openDictionary_ensures (hs : s.Sound) (h : String) :
    Ensures Builds (openDictionary h) s fun c t =>
      t.Opened h c.id (.dictionary c.key c.value c.slots) := by
  apply Ensures.ask
  apply Ensures.ask
  split
  · next id k v ss ho hc => exact .pure hs ⟨ho, ho ▸ hc⟩
  · exact .cast hs fun _ _ => .pure hs rfl

theorem Ensures.mapOption [Std.Refl R] [Trans R R R] {f : α → Action β} {o : Option α}
    (hs : s.Sound) (hf : ∀ x, o = some x → Ensures R (f x) s fun _ _ => True) :
    Ensures R (o.mapM f) s fun _ _ => True := by
  cases o with
  | none => exact .pure hs trivial
  | some x =>
    rw [Option.mapM_some, map_eq_pure_bind]
    exact (hf x rfl).map _

/-! How the steps begin. -/

theorem fromSet {f : OpenSet → Nat → Action β} (hs : s.Sound) (h : String)
    (hf : ∀ o id t, t.Sound → s.handle h = .object id → t.store.AllSafe o →
      Ensures (Leads scope) (f o id) t Q) :
    Ensures (Leads scope) (do let o ← openSet h; f o (← demandId o.id)) s Q := by
  apply (openSet_ensures hs h).bind
  intro o t ht hb ho
  apply Ensures.demandId ht
  intro id hid
  exact hf o id t ht (ho.handle_of_builds hb hid) (Store.safeAll_hashSet.mp (ho.safeAll ht))

theorem fromSetAndElement {f : (o : OpenSet) → o.element.Value → Nat → Action β} (hs : s.Sound)
    (h : String) (l : Literal)
    (hf : ∀ o x id t, t.Sound → s.handle h = .object id → t.store.AllSafe o →
      t.store.SafeAll (o.element.owned x) → Ensures (Leads scope) (f o x id) t Q) :
    Ensures (Leads scope) (do
      let o ← openSet h
      let x ← l.element o.element
      f o x (← demandId o.id)) s Q := by
  apply (openSet_ensures hs h).bind
  intro o t ht ho' ho
  apply (element_ensures ht o.element l).bind
  intro x u hu hb hx
  apply Ensures.demandId hu
  intro id hid
  have hc := (ho.mono hb).safeAll hu
  exact hf o x id u hu (ho.handle_of_builds ho' hid) (Store.safeAll_hashSet.mp hc) hx

theorem fromSetAndSource {f : (o : OpenSet) → List o.element.Value → Nat → Action β}
    (hs : s.Sound) (h : String) (source : Source)
    (hf : ∀ o xs id t, t.Sound → s.handle h = .object id → t.store.AllSafe o →
      (∀ x ∈ xs, t.store.SafeAll (o.element.owned x)) → Ensures (Leads scope) (f o xs id) t Q) :
    Ensures (Leads scope) (do
      let o ← openSet h
      let xs ← elementsOf o.element source
      f o xs (← demandId o.id)) s Q := by
  apply (openSet_ensures hs h).bind
  intro o t ht ho' ho
  apply (elementsOf_ensures ht o.element source).bind
  intro xs u hu hb hxs
  apply Ensures.demandId hu
  intro id hid
  have hc := (ho.mono hb).safeAll hu
  exact hf o xs id u hu (ho.handle_of_builds ho' hid) (Store.safeAll_hashSet.mp hc) hxs

theorem fromDictionary {f : OpenDictionary → Nat → Action β} (hs : s.Sound) (h : String)
    (hf : ∀ o id t, t.Sound → s.handle h = .object id → t.store.AllEntriesSafe o →
      Ensures (Leads scope) (f o id) t Q) :
    Ensures (Leads scope) (do let o ← openDictionary h; f o (← demandId o.id)) s Q := by
  apply (openDictionary_ensures hs h).bind
  intro o t ht hb ho
  apply Ensures.demandId ht
  intro id hid
  exact hf o id t ht (ho.handle_of_builds hb hid) (Store.safeAll_dictionary.mp (ho.safeAll ht))

theorem fromDictionaryAndKey {f : (o : OpenDictionary) → o.key.Value → Nat → Action β}
    (hs : s.Sound) (h : String) (l : Literal)
    (hf : ∀ o k id t, t.Sound → s.handle h = .object id → t.store.AllEntriesSafe o →
      Ensures (Leads scope) (f o k id) t Q) :
    Ensures (Leads scope) (do
      let o ← openDictionary h
      let k ← l.element o.key
      f o k (← demandId o.id)) s Q := by
  apply (openDictionary_ensures hs h).bind
  intro o t ht ho' ho
  apply (element_ensures ht o.key l).bind
  intro k u hu hb _
  apply Ensures.demandId hu
  intro id hid
  have hc := (ho.mono hb).safeAll hu
  exact hf o k id u hu (ho.handle_of_builds ho' hid) (Store.safeAll_dictionary.mp hc)

theorem fromDictionaryAndEntry
    {f : (o : OpenDictionary) → o.key.Value → o.value.Value → Nat → Action β}
    (hs : s.Sound) (h : String) (k v : Literal)
    (hf : ∀ o key value id t, t.Sound → s.handle h = .object id → t.store.AllEntriesSafe o →
      t.store.SafeAll (o.key.owned key) → t.store.SafeAll (o.value.owned value) →
        Ensures (Leads scope) (f o key value id) t Q) :
    Ensures (Leads scope) (do
      let o ← openDictionary h
      let key ← k.element o.key
      let value ← v.element o.value
      f o key value (← demandId o.id)) s Q := by
  apply (openDictionary_ensures hs h).bind
  intro o t ht ho' ho
  apply (element_ensures ht o.key k).bind
  intro key u hu hb hk
  apply (element_ensures hu o.value v).bind
  intro value w hw hb' hv
  apply Ensures.demandId hw
  intro id hid
  have hc := ((ho.mono hb).mono hb').safeAll hw
  have hk : w.store.SafeAll (o.key.owned key) := fun x hx => hb'.store.safe (hk x hx)
  exact hf o key value id w hw (ho.handle_of_builds ho' hid) (Store.safeAll_dictionary.mp hc) hk hv

theorem foundValue_ensures {o : OpenDictionary} (hs : s.Sound) (hc : s.store.AllEntriesSafe o)
    (q : Keying o.key.Value) (k : o.key.Value) :
    Ensures Builds ((Table.get? q k o.slots).mapM (toObject o.value)) s fun _ _ => True := by
  apply Ensures.mapOption hs
  intro v hv
  exact (toObject_ensures hs o.value v (hc.get? hv)).mono fun _ _ _ => trivial

theorem showOptional_ensures (hs : s.Sound) (o : Option Handle) :
    Ensures (Leads scope) (do return Answer.optional (← o.mapM view)) s fun _ _ => True := by
  have hview : Ensures (Leads scope) (o.mapM view) s fun _ _ => True :=
    .mapOption hs fun _ _ => .reads hs (.query _)
  exact hview.map _

theorem setStep_ensures (hs : s.Sound) (step : SetStep) :
    Ensures (Leads (step.scope s)) (setStep step) s fun _ _ => True := by
  cases step with
  | new h t =>
    have hb : (Body.collection (.hashSet t [])).IsEmpty := ⟨rfl, rfl⟩
    apply (make_ensures_of_isEmpty hs hb).bind
    intro o v hv _ ho
    exact (setHandle_ensures hv h (hv.safe_of_holds ho)).map _
  | add h l =>
    apply fromSetAndElement hs h l
    intro o x id t ht hid hc hx
    apply Ensures.ask
    have hi := hc.insert (v := ()) (o.element.keying t.store) hx trivial
    exact replaced ht (Store.safeAll_hashSet.mpr hi) (SetStep.scope_objects rfl hid ..) _
  | contains h l =>
    apply fromSetAndElement hs h l
    intro o x id t ht _ _ _
    exact .ask (.pure ht trivial)
  | remove h l =>
    apply fromSetAndElement hs h l
    intro o x id t ht hid hc _
    apply Ensures.ask
    have he := hc.erase (o.element.keying t.store) x
    exact replaced ht (Store.safeAll_hashSet.mpr he) (SetStep.scope_objects rfl hid ..) _
  | union h source =>
    apply fromSetAndSource hs h source
    intro o xs id t ht hid hc hxs
    apply Ensures.ask
    have hi := hc.insertAll (o.element.keying t.store) hxs
    exact replaced ht (Store.safeAll_hashSet.mpr hi) (SetStep.scope_objects rfl hid ..) _
  | intersect h source =>
    apply fromSetAndSource hs h source
    intro o xs id t ht hid hc _
    apply Ensures.ask
    have hr := hc.retain (o.element.keying t.store) xs
    exact replaced ht (Store.safeAll_hashSet.mpr hr) (SetStep.scope_objects rfl hid ..) _
  | count h =>
    apply fromSet hs h
    intro o id t ht _ _
    exact .pure ht trivial
  | clear h =>
    apply fromSet hs h
    intro o id t ht hid _
    exact replaced ht (Store.safeAll_hashSet.mpr Table.all_nil) (SetStep.scope_objects rfl hid ..) _
  | toVec h =>
    apply fromSet hs h
    intro o id t ht _ hc
    have hk : ∀ x ∈ o.slots.map Slot.key, t.store.SafeAll (o.element.owned x) :=
      List.forall_mem_map.mpr fun slot hm => (hc slot hm).1
    exact (showElements_ensures ht o.element hk).leads.map _

theorem dictionaryStep_ensures (hs : s.Sound) (step : DictionaryStep) :
    Ensures (Leads (step.scope s)) (dictionaryStep step) s fun _ _ => True := by
  cases step with
  | new h k v =>
    have hb : (Body.collection (.dictionary k v [])).IsEmpty := ⟨rfl, rfl⟩
    apply (make_ensures_of_isEmpty hs hb).bind
    intro o v hv _ ho
    exact (setHandle_ensures hv h (hv.safe_of_holds ho)).map _
  | add h k v =>
    apply fromDictionaryAndEntry hs h k v
    intro o key value id t ht hid hc hk hv
    apply Ensures.ask
    split
    · exact .query ht fun _ _ => .throw ht _
    · have hi := hc.insert (o.key.keying t.store) hk hv
      exact replaced ht (Store.safeAll_dictionary.mpr hi)
        (DictionaryStep.scope_objects rfl hid ..) _
  | set h k v =>
    apply fromDictionaryAndEntry hs h k v
    intro o key value id t ht hid hc hk hv
    apply Ensures.ask
    have hi := Store.safeAll_dictionary.mpr (hc.insert (o.key.keying t.store) hk hv)
    apply (foundValue_ensures ht hc _ key).bind
    intro old u hu hb _
    have hi : u.store.SafeAll (Contents.dictionary o.key o.value _).owned :=
      fun x hx => hb.store.safe (hi x hx)
    apply (replace_ensures hu hi (DictionaryStep.scope_objects rfl hid ..)).andThen
    intro _ w hw _ _
    exact showOptional_ensures hw old
  | get h k target =>
    apply fromDictionaryAndKey hs h k
    intro o key id t ht _ hc
    apply Ensures.ask
    split
    · next value hv => exact delivered_element ht o.value (hc.get? hv) target _
    · exact .query ht fun _ _ => .throw ht _
  | tryGet h k =>
    apply fromDictionaryAndKey hs h k
    intro o key id t ht _ hc
    apply Ensures.ask
    apply (foundValue_ensures ht hc _ key).bind
    intro value u hu _ _
    exact showOptional_ensures hu value
  | containsKey h k =>
    apply fromDictionaryAndKey hs h k
    intro o key id t ht _ _
    exact .ask (.pure ht trivial)
  | containsValue h v =>
    apply (openDictionary_ensures hs h).bind
    intro o t ht _ _
    apply (element_ensures ht o.value v).bind
    intro value u hu _ _
    apply Ensures.demandId hu
    intro id _
    exact .get (.pure hu trivial)
  | remove h k =>
    apply fromDictionaryAndKey hs h k
    intro o key id t ht hid hc
    apply Ensures.ask
    have he := hc.erase (o.key.keying t.store) key
    exact replaced ht (Store.safeAll_dictionary.mpr he) (DictionaryStep.scope_objects rfl hid ..) _
  | keys h =>
    apply fromDictionary hs h
    intro o id t ht _ hc
    have hk : ∀ x ∈ o.slots.map Slot.key, t.store.SafeAll (o.key.owned x) :=
      List.forall_mem_map.mpr fun slot hm => (hc slot hm).1
    exact (showElements_ensures ht o.key hk).leads.map _
  | values h =>
    apply fromDictionary hs h
    intro o id t ht _ hc
    have hv : ∀ x ∈ o.slots.map Slot.value, t.store.SafeAll (o.value.owned x) :=
      List.forall_mem_map.mpr fun slot hm => (hc slot hm).2
    exact (showElements_ensures ht o.value hv).leads.map _
  | count h =>
    apply fromDictionary hs h
    intro o id t ht _ _
    exact .pure ht trivial
  | clear h =>
    apply fromDictionary hs h
    intro o id t ht hid _
    exact replaced ht (Store.safeAll_dictionary.mpr Table.all_nil)
      (DictionaryStep.scope_objects rfl hid ..) _

end Action

end CountedObjects
