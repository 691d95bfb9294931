import CountedObjects.Proofs.Realm
import CountedObjects.Session.State

/-! Sound sessions: the store is sound for the handles that names, enumerators and the current step
hold. Every change of the names and enumerators keeps a session sound. -/
namespace CountedObjects

namespace Named

variable {α : Type}

/-- A value takes the place of another one, where a name without a value has a default that weighs
nothing. -/
theorem total_set (w : α → Nat) {d : α} (hd : w d = 0) (name : String) (a : α)
    (xs : List (String × α)) :
    total (fun p => w p.2) (set name a xs) + w ((xs.lookup name).getD d) =
      total (fun p => w p.2) xs + w a := by
  induction xs with
  | nil => simp [set, total, hd]
  | cons p xs ih =>
    obtain ⟨n, b⟩ := p
    by_cases hn : n = name
    · simp only [set, hn, if_true, List.lookup_cons, BEq.rfl, total, Option.getD_some]
      omega
    · have hb : (name == n) = false := beq_eq_false_iff_ne.mpr (Ne.symm hn)
      simp only [set, hn, if_false, List.lookup_cons, hb, total]
      omega

theorem total_erase (w : α → Nat) {d : α} (hd : w d = 0) (name : String) (xs : List (String × α)) :
    total (fun p => w p.2) (erase name xs) + w ((xs.lookup name).getD d) =
      total (fun p => w p.2) xs := by
  induction xs with
  | nil => simp [erase, total, hd]
  | cons p xs ih =>
    obtain ⟨n, b⟩ := p
    by_cases hn : n = name
    · simp only [erase, hn, List.eraseP_cons, BEq.rfl, cond_true, List.lookup_cons, total,
        Option.getD_some]
      omega
    · have hb : (name == n) = false := beq_eq_false_iff_ne.mpr (Ne.symm hn)
      have hb' : (n == name) = false := beq_eq_false_iff_ne.mpr hn
      simp only [erase] at ih
      simp only [erase, List.eraseP_cons, hb', cond_false, List.lookup_cons, hb, total]
      omega

theorem lookup_set (name other : String) (a : α) (xs : List (String × α)) :
    (set name a xs).lookup other = if other = name then some a else xs.lookup other := by
  induction xs with
  | nil =>
    by_cases ho : other = name
    · simp [set, ho]
    · have hb : (other == name) = false := beq_eq_false_iff_ne.mpr ho
      simp [set, List.lookup_cons, ho, hb]
  | cons p xs ih =>
    obtain ⟨n, b⟩ := p
    by_cases hn : n = name
    · by_cases ho : other = name
      · simp [set, hn, ho]
      · have hb : (other == name) = false := beq_eq_false_iff_ne.mpr ho
        simp [set, List.lookup_cons, hn, ho, hb]
    · by_cases ho : other = n
      · simp [set, hn, ho]
      · have hb : (other == n) = false := beq_eq_false_iff_ne.mpr ho
        simp only [set, hn, if_false, List.lookup_cons, hb, ih]

theorem lookup_erase {name other : String} (ho : other ≠ name) (xs : List (String × α)) :
    (erase name xs).lookup other = xs.lookup other := by
  induction xs with
  | nil => rfl
  | cons p xs ih =>
    obtain ⟨n, b⟩ := p
    by_cases hn : n = name
    · have hb : (other == name) = false := beq_eq_false_iff_ne.mpr ho
      simp [erase, List.lookup_cons, hn, hb]
    · have hb : (n == name) = false := beq_eq_false_iff_ne.mpr hn
      simp only [erase] at ih
      simp only [erase, List.eraseP_cons, hb, cond_false, List.lookup_cons, ih]

end Named

/-- What a step may change: what certain objects are and which elements certain enumerators have. -/
structure Scope where
  objects : Nat → Body → Prop
  enumerators : String → Prop

/-- Of a step that changes no object and no enumerator. -/
def Scope.nothing : Scope := ⟨fun _ _ => False, fun _ => False⟩

namespace Session

/-- Every object has as many references as the session and the objects hold handles to it. -/
def Sound (s : Session) : Prop := s.store.Sound s.roots

/-- `t` is a later state within the step that led to `s`, which changes only what is in its
scope. -/
structure Leads (scope : Scope) (s t : Session) : Prop where
  store : s.store.Spares scope.objects t.store
  described : s.realm.Described → t.realm.Described
  held : s.held <:+ t.held
  enumerators : ∀ e, ¬ scope.enumerators e → t.enumerators.lookup e = s.enumerators.lookup e

/-- `t` differs from `s` by new objects, by new descriptors of types and by handles that the step
holds. -/
structure Builds (s t : Session) : Prop where
  store : s.store.Grows t.store
  registry : s.realm.registry.Extends t.realm.registry
  described : s.realm.Described → t.realm.Described
  held : s.held <:+ t.held
  handles : t.handles = s.handles
  enumerators : t.enumerators = s.enumerators
  types : t.types = s.types
  activators : t.activators = s.activators

/-- An object is held by the step, so that it lives until the step ends. -/
def Holds (s : Session) (h : Handle) : Prop := ∀ id, h = .object id → h ∈ s.held

variable {s t u : Session} {h : Handle} {hs : List Handle} {name : String} {scope : Scope}

theorem Leads.refl (s : Session) : Leads scope s s :=
  ⟨.refl _, id, List.suffix_rfl, fun _ _ => rfl⟩

theorem Leads.trans (h : Leads scope s t) (h' : Leads scope t u) : Leads scope s u where
  store := h.store.trans h'.store
  described hs := h'.described (h.described hs)
  held := h.held.trans h'.held
  enumerators e he := (h'.enumerators e he).trans (h.enumerators e he)

/-- A change of the session that leaves the enumerators alone. -/
theorem Leads.of_store (hs : s.store.Spares scope.objects t.store)
    (hd : s.realm.Described → t.realm.Described) (hh : s.held <:+ t.held)
    (he : t.enumerators = s.enumerators) : Leads scope s t :=
  ⟨hs, hd, hh, fun _ _ => by rw [he]⟩

theorem Builds.refl (s : Session) : s.Builds s :=
  ⟨.refl _, .refl _, id, List.suffix_rfl, rfl, rfl, rfl, rfl⟩

theorem Builds.trans (h : s.Builds t) (h' : t.Builds u) : s.Builds u where
  store := h.store.trans h'.store
  registry := h.registry.trans h'.registry
  described hs := h'.described (h.described hs)
  held := h.held.trans h'.held
  handles := h'.handles.trans h.handles
  enumerators := h'.enumerators.trans h.enumerators
  types := h'.types.trans h.types
  activators := h'.activators.trans h.activators

theorem Builds.leads (h : s.Builds t) : Leads scope s t :=
  .of_store h.store.spares h.described h.held h.enumerators

theorem Builds.handle (h : s.Builds t) (name : String) : t.handle name = s.handle name := by
  rw [Session.handle, h.handles, Session.handle]

instance : Std.Refl (Leads scope) := ⟨Leads.refl⟩
instance : Std.Refl Builds := ⟨Builds.refl⟩
instance : Trans (Leads scope) (Leads scope) (Leads scope) := ⟨Leads.trans⟩
instance : Trans Builds Builds Builds := ⟨Builds.trans⟩
instance : Trans Builds (Leads scope) (Leads scope) := ⟨fun h h' => h.leads.trans h'⟩

theorem holds_null (s : Session) : s.Holds .null := fun _ e => Handle.noConfusion e

theorem holds_type (s : Session) (t : TypeHandle) : s.Holds (.ofType t) := fun _ e => by
  cases t <;> cases e

theorem holds_of_mem (hm : h ∈ s.held) : s.Holds h := fun _ _ => hm

theorem Holds.mono (hh : s.Holds h) (hl : s.held <:+ t.held) : t.Holds h :=
  fun id e => hl.subset (hh id e)

theorem Sound.safe_of_mem_roots (hs : s.Sound) (hm : h ∈ s.roots) : s.store.Safe h :=
  Store.Counted.safe_of_mem hs.toCounted hm

theorem Sound.safe_of_holds (hs : s.Sound) (hh : s.Holds h) : s.store.Safe h := fun id e =>
  hs.safe_of_mem_roots (List.mem_append_right _ (hh id e)) id e

theorem handle_mem_roots (s : Session) (name : String) :
    s.handle name = .null ∨ s.handle name ∈ s.roots := by
  unfold Session.handle
  cases hl : s.handles.lookup name with
  | none => exact .inl rfl
  | some h =>
    have hm : h ∈ s.handles.map (·.2) := by
      obtain ⟨l, r, he, -⟩ := List.lookup_eq_some_iff.mp hl
      simp [he]
    exact .inr (List.mem_append_left _ (List.mem_append_left _ hm))

/-- A name never points to a destroyed object. -/
theorem Sound.safe_handle (hs : s.Sound) (name : String) : s.store.Safe (s.handle name) := by
  rcases s.handle_mem_roots name with hn | hm
  · exact hn ▸ Store.safe_null
  · exact hs.safe_of_mem_roots hm

theorem enumerator_of_lookup {x : Enumerator} (hl : s.enumerators.lookup name = some x) :
    s.enumerator name = x := by
  rw [enumerator, hl, Option.getD_some]

theorem mem_roots_of_lookup {x : Enumerator} (hl : s.enumerators.lookup name = some x)
    (hm : h ∈ x.items) : h ∈ s.roots := by
  obtain ⟨l, r, hlr, -⟩ := List.lookup_eq_some_iff.mp hl
  have hx : (name, x) ∈ s.enumerators := by simp [hlr]
  have hitem : h ∈ s.enumerators.flatMap (·.2.items) := List.mem_flatMap.mpr ⟨_, hx, hm⟩
  exact List.mem_append_left _ (List.mem_append_right _ hitem)

theorem count_roots (s : Session) (h : Handle) :
    s.roots.count h = total (fun p => [p.2].count h) s.handles +
      total (fun p => p.2.items.count h) s.enumerators + s.held.count h := by
  have hh : (s.handles.map (·.2)).count h = total (fun p => [p.2].count h) s.handles := by
    rw [List.map_eq_flatMap, count_flatMap]
  have he : (s.enumerators.flatMap (·.2.items)).count h =
      total (fun p => p.2.items.count h) s.enumerators := count_flatMap _ _ h
  rw [roots, List.count_append, List.count_append, hh, he]

/-! Changes of names and enumerators. Each of them takes handles that are counted already and
releases those that are held no longer. -/

theorem release_sound (h : s.store.Sound (hs ++ s.roots)) : (s.release hs).Sound := h.releaseAll

theorem setHandle_sound (hs : s.Sound) (hh : s.store.Safe h) (name : String) :
    (s.setHandle name h).Sound := by
  let t : Session :=
    { s with realm := (s.realm.share h).2, handles := Named.set name h s.handles }
  have ha : t.store.Sound ([h] ++ s.roots) := Store.Sound.attach hs hh
  have ht : t.store.Sound ([s.handle name] ++ t.roots) := by
    refine ha.congr fun id => ?_
    have hsum := Named.total_set (fun x => [x].count (.object id)) (d := .null) rfl name h s.handles
    simp only [List.count_append, count_roots, Session.handle, t] at hsum ⊢
    omega
  exact release_sound ht

theorem leads_setHandle (s : Session) (name : String) (h : Handle) :
    Leads scope s (s.setHandle name h) :=
  .of_store ((Store.Grows.attach s.store h).spares.trans (.releaseAll _ _))
    (fun hs => Realm.described_releaseAll (Realm.described_shareAll hs [h]) [s.handle name])
    List.suffix_rfl rfl

theorem handle_setHandle (s : Session) (name : String) (h : Handle) :
    (s.setHandle name h).handle name = h := by
  have hl : (s.setHandle name h).handles.lookup name = some h :=
    (Named.lookup_set ..).trans (if_pos rfl)
  rw [handle, hl, Option.getD_some]

theorem handle_setHandle_of_ne {name other : String} (h : other ≠ name) (s : Session) (o : Handle) :
    (s.setHandle name o).handle other = s.handle other := by
  have hl : (s.setHandle name o).handles.lookup other = s.handles.lookup other :=
    (Named.lookup_set ..).trans (if_neg h)
  rw [handle, hl, handle]

theorem clearHandle_sound (hs : s.Sound) (name : String) : (s.clearHandle name).Sound := by
  unfold clearHandle
  split
  · exact setHandle_sound hs Store.safe_null name
  · exact hs

theorem leads_clearHandle (s : Session) (name : String) :
    Leads scope s (s.clearHandle name) := by
  unfold clearHandle
  split
  · exact leads_setHandle s name .null
  · exact .refl s

theorem dropHandle_sound (hs : s.Sound) (name : String) : (s.dropHandle name).Sound := by
  let t : Session := { s with handles := Named.erase name s.handles }
  have ht : t.store.Sound ([s.handle name] ++ t.roots) := by
    refine Store.Sound.congr hs fun id => ?_
    have hsum := Named.total_erase (fun x => [x].count (.object id)) (d := .null) rfl name s.handles
    simp only [List.count_append, count_roots, Session.handle, t] at hsum ⊢
    omega
  exact release_sound ht

theorem leads_dropHandle (s : Session) (name : String) : Leads scope s (s.dropHandle name) :=
  .of_store (.releaseAll _ _) (Realm.described_releaseAll · _) List.suffix_rfl rfl

theorem setEnumerator_sound {e : Enumerator} (hs : s.store.Sound (e.items ++ s.roots))
    (name : String) : (s.setEnumerator name e).Sound := by
  let t : Session := { s with enumerators := Named.set name e s.enumerators }
  have ht : t.store.Sound ((s.enumerator name).items ++ t.roots) := by
    refine hs.congr fun id => ?_
    have hsum := Named.total_set (fun x : Enumerator => x.items.count (.object id))
      (d := ⟨[], false⟩) rfl name e s.enumerators
    simp only [List.count_append, count_roots, enumerator, t] at hsum ⊢
    omega
  exact release_sound ht

theorem leads_setEnumerator (s : Session) (hw : scope.enumerators name) (e : Enumerator) :
    Leads scope s (s.setEnumerator name e) where
  store := .releaseAll _ _
  described hs := Realm.described_releaseAll hs _
  held := List.suffix_rfl
  enumerators other ho := by
    have hne : other ≠ name := fun heq => ho (heq ▸ hw)
    exact (Named.lookup_set ..).trans (if_neg hne)

theorem dropEnumerator_sound (hs : s.Sound) (name : String) : (s.dropEnumerator name).Sound := by
  let t : Session := { s with enumerators := Named.erase name s.enumerators }
  have ht : t.store.Sound ((s.enumerator name).items ++ t.roots) := by
    refine Store.Sound.congr hs fun id => ?_
    have hsum := Named.total_erase (fun x : Enumerator => x.items.count (.object id))
      (d := ⟨[], false⟩) rfl name s.enumerators
    simp only [List.count_append, count_roots, enumerator, t] at hsum ⊢
    omega
  exact release_sound ht

theorem leads_dropEnumerator (s : Session) (hw : scope.enumerators name) :
    Leads scope s (s.dropEnumerator name) where
  store := .releaseAll _ _
  described hs := Realm.described_releaseAll hs _
  held := List.suffix_rfl
  enumerators other ho := by
    have hne : other ≠ name := fun heq => ho (heq ▸ hw)
    exact Named.lookup_erase hne _

/-- What an object holds is safe to hold besides. -/
theorem Sound.safeAll_body (hs : s.Sound) {b : Body} (hb : s.store.body? h = some b) :
    s.store.SafeAll b.owned := by
  cases h with
  | null => cases hb
  | type d => cases hb
  | object id =>
    obtain ⟨x, hx, rfl⟩ := Option.map_eq_some_iff.mp hb
    exact fun y hy => Store.Counted.safe_of_owned hs.toCounted hx hy

theorem Sound.safeAll_contents (hs : s.Sound) {c : Contents} (hc : s.store.contents? h = some c) :
    s.store.SafeAll c.owned := by
  unfold Store.contents? at hc
  split at hc
  · next hb =>
    cases hc
    exact hs.safeAll_body hb
  · cases hc

theorem openEnumerator?_sound (hs : s.Sound) (hw : scope.enumerators name)
    (ht : s.openEnumerator? name h = some t) : t.Sound ∧ Leads scope s t := by
  obtain ⟨c, hc, rfl⟩ := Option.map_eq_some_iff.mp ht
  have hg := Realm.enumerate_gives (r := s.realm) hs c (hs.safeAll_contents hc)
  let u : Session := { s with realm := (s.realm.enumerate c).2 }
  have hu : u.store.Sound ((s.realm.enumerate c).1 ++ u.roots) := hg.sound
  have hl : Leads scope s u := .of_store hg.grows.spares hg.described List.suffix_rfl rfl
  exact ⟨setEnumerator_sound hu name, hl.trans (leads_setEnumerator u hw _)⟩

theorem takeNext?_sound (hs : s.Sound) (hw : scope.enumerators name)
    (ht : s.takeNext? name = some (h, t)) : t.Sound ∧ Leads scope s t ∧ t.Holds h := by
  unfold takeNext? at ht
  cases hi : (s.enumerator name).items with
  | nil => simp [hi] at ht
  | cons x xs =>
    simp only [hi, Option.some.injEq, Prod.mk.injEq] at ht
    obtain ⟨rfl, rfl⟩ := ht
    have hkept : ∀ other, ¬ scope.enumerators other →
        (Named.set name ⟨xs, (s.enumerator name).isUnordered⟩ s.enumerators).lookup other =
          s.enumerators.lookup other := by
      intro other ho
      have hne : other ≠ name := fun heq => ho (heq ▸ hw)
      rw [Named.lookup_set, if_neg hne]
    refine ⟨Store.Sound.congr hs fun id => ?_, ⟨.refl _, id, List.suffix_cons _ _, hkept⟩,
      holds_of_mem (List.mem_cons_self ..)⟩
    have hsum := Named.total_set (fun e : Enumerator => e.items.count (.object id))
      (d := ⟨[], false⟩) rfl name ⟨xs, (s.enumerator name).isUnordered⟩ s.enumerators
    rw [← enumerator, hi] at hsum
    simp only [List.count_cons (l := xs)] at hsum
    simp only [count_roots, hold, List.count_cons (l := s.held)]
    omega

theorem takeRest?_sound {e : Enumerator} (hs : s.Sound) (hw : scope.enumerators name)
    (ht : s.takeRest? name = some (e, t)) : t.Sound ∧ Leads scope s t := by
  obtain ⟨e', he, hp⟩ := Option.map_eq_some_iff.mp ht
  simp only [Prod.mk.injEq] at hp
  obtain ⟨rfl, rfl⟩ := hp
  have hkept : ∀ other, ¬ scope.enumerators other →
      (Named.erase name s.enumerators).lookup other = s.enumerators.lookup other := by
    intro other ho
    have hne : other ≠ name := fun heq => ho (heq ▸ hw)
    exact Named.lookup_erase hne _
  refine ⟨Store.Sound.congr hs fun id => ?_, .refl _, id, List.suffix_append _ _, hkept⟩
  have hsum := Named.total_erase (fun e : Enumerator => e.items.count (.object id))
    (d := ⟨[], false⟩) rfl name s.enumerators
  simp only [he, Option.getD_some] at hsum
  simp only [count_roots, List.count_append]
  omega

theorem endStep_sound (hs : s.Sound) : s.endStep.Sound := by
  have ht : s.store.Sound (s.held ++ ({ s with held := [] } : Session).roots) := by
    refine Store.Sound.congr hs fun id => ?_
    simp only [List.count_append, count_roots, List.count_nil]
    omega
  exact release_sound (s := { s with held := [] }) ht

theorem spares_endStep {changes : Nat → Body → Prop} (s : Session) :
    s.store.Spares changes s.endStep.store :=
  .releaseAll _ _

theorem endStep_store (hh : s.held = hs) :
    s.endStep.store = s.store.releaseAll hs := by
  rw [← hh]
  rfl

theorem endStep_of_held_eq_nil (hh : s.held = []) : s.endStep = s := by
  obtain ⟨realm, types, handles, enumerators, activators, held⟩ := s
  cases hh
  simp [endStep, release, mapRealm, Realm.releaseAll, Store.releaseAll]

theorem endStep_store_of_held_eq_nil (hh : s.held = []) : s.endStep.store = s.store := by
  rw [endStep_of_held_eq_nil hh]

theorem close_sound (hs : s.Sound) : s.close.store.Sound [] :=
  Store.Sound.releaseAll_self hs

end Session

end CountedObjects
