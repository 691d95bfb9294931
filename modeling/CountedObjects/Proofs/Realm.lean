import CountedObjects.Proofs.Registry
import CountedObjects.Proofs.Store.Soundness
import CountedObjects.Realm

/-! Operations that give out handles count each of them for the caller and leave all objects as
they are. Descriptors may be built on the way. -/
namespace CountedObjects

/-- Every object has the descriptor that the registry lists for its kind. So has every
descriptor. -/
structure Realm.Described (r : Realm) : Prop where
  object : ∀ id c, r.store.find? id = some c → r.registry.lookup (.kind c.body.kind) = some c.type
  metatype : r.registry.lookup (.kind .type) = some r.store.metatype

/-- From `r`, with the given owners, an operation leads to `r'` and gives out the handles `hs`. -/
structure Realm.Gives (r : Realm) (os hs : List Handle) (r' : Realm) : Prop where
  sound : r'.store.Sound (hs ++ os)
  grows : r.store.Grows r'.store
  registry : r.registry.Extends r'.registry
  described : r.Described → r'.Described

theorem Handle.eq_null_of_isNull {h : Handle} (hn : h.isNull = true) : h = .null := by
  cases h with
  | null => rfl
  | type | object => cases hn

namespace Store

theorem mismatch_ne_ok {α : Type} {s : Store} {expected : String} {h : Handle} {x : α} :
    s.mismatch expected h ≠ .ok x := by
  intro hx
  unfold mismatch at hx
  cases hn : s.typeName h <;> rw [hn] at hx <;> cases hx

/-- A cast changes how a handle is seen and not where it points. -/
theorem eq_of_tryCast {s : Store} {k : Kind} {h x : Handle} (hx : s.tryCast k h = .ok x) :
    x = h := by
  unfold tryCast at hx
  split at hx
  · cases hx
    rfl
  · exact absurd hx mismatch_ne_ok

theorem eq_of_cast {s : Store} {k : Kind} {h x : Handle} (hx : s.cast k h = .ok x) : x = h := by
  refine eq_of_tryCast (s := s) (k := k) ?_
  unfold cast at hx
  cases ht : s.tryCast k h with
  | ok y => rwa [ht] at hx
  | error e =>
    rw [ht] at hx
    cases e <;> cases hx

end Store

namespace ElementType

theorem eq_null_of_ofObject_none {s : Store} {h : Handle} {t : ElementType}
    (hv : (option t).ofObject s h = .ok none) : h = .null := by
  simp only [ofObject] at hv
  split at hv
  · next hn => exact Handle.eq_null_of_isNull hn
  · cases hw : t.ofObject s h <;> simp [hw, Except.map] at hv

/-- An optional element that is not missing is converted as if it could not be. -/
theorem ofObject_of_option {s : Store} {h : Handle} {t : ElementType} {v : t.Value}
    (hv : (option t).ofObject s h = .ok (some v)) : t.ofObject s h = .ok v := by
  simp only [ofObject] at hv
  split at hv
  · cases hv
  · cases hw : t.ofObject s h with
    | error e => simp [hw, Except.map] at hv
    | ok w =>
      rw [hw] at hv
      cases hv
      rfl

/-- The only handle that an element may hold is that of the object it was recovered from. -/
theorem owned_ofObject {s : Store} {h : Handle} :
    (t : ElementType) → (v : t.Value) → t.ofObject s h = .ok v → ∀ x ∈ t.owned v, x = h
  | .scalar _, _, _ => List.forall_mem_nil _
  | .string, _, _ => List.forall_mem_nil _
  | .object, _, hv => by
    cases hv
    exact fun x hx => List.mem_singleton.mp hx
  | .key, _, hv => by
    cases hv
    exact fun x hx => List.mem_singleton.mp hx
  | .pointer k, v, hv => fun x hx => Store.eq_of_tryCast hv ▸ List.mem_singleton.mp hx
  | .option _, none, _ => List.forall_mem_nil _
  | .option t, some v, hv => owned_ofObject t v (ofObject_of_option hv)

theorem owned_ofObjects {s : Store} {hs : List Handle} {t : ElementType} {vs : List t.Value}
    (hv : t.ofObjects s hs = .ok vs) : ∀ x ∈ vs.flatMap t.owned, x ∈ hs := by
  induction hs generalizing vs with
  | nil =>
    cases hv
    exact List.forall_mem_nil _
  | cons h hs ih =>
    rw [ofObjects, List.mapM_cons] at hv
    cases hh : t.ofObject s h with
    | error e => simp [hh, bind, Except.bind] at hv
    | ok w =>
      cases hr : hs.mapM (t.ofObject s) with
      | error e => simp [hh, hr, bind, Except.bind] at hv
      | ok ws =>
        simp only [hh, hr, bind, Except.bind, pure, Except.pure, Except.ok.injEq] at hv
        subst hv
        intro x hx
        rcases List.mem_append.mp hx with hx | hx
        · exact t.owned_ofObject w hh x hx ▸ List.mem_cons_self ..
        · exact List.mem_cons_of_mem _ (ih hr x hx)

end ElementType

namespace Realm

variable {r r' r'' : Realm} {os hs hs' : List Handle}

/-- Without new objects all that there are stay described. -/
theorem Described.of_precedes (h : r.Described) (hk : r.registry.Keeps r'.registry)
    (hp : r.store.Precedes r'.store) (hsize : r'.store.cells.size = r.store.cells.size) :
    r'.Described where
  object id d hd := by
    have hlt : id < r.store.cells.size := hsize ▸ Store.lt_size_of_find? hd
    obtain ⟨c, hc, hcd⟩ := hp.cell id d hlt hd
    rw [hcd.body.kind, hcd.type]
    exact hk _ _ (h.object id c hc)
  metatype := hp.metatype ▸ hk _ _ h.metatype

theorem Described.of_registry {x : Registry} (h : r.Described) (hk : r.registry.Keeps x) :
    Described ⟨x, r.store⟩ :=
  ⟨fun id c hc => hk _ _ (h.object id c hc), hk _ _ h.metatype⟩

theorem described_make (h : r.Described) (b : Body) : (r.make b).2.Described := by
  have hkept : r.registry.Keeps (r.registry.typeOf b.kind).2 :=
    r.registry.request_keeps (.kind b.kind) b.kind.recipe
  have hold : Described ⟨(r.registry.typeOf b.kind).2, r.store.attachAll b.owned⟩ :=
    h.of_precedes hkept (Store.Grows.attachAll r.store b.owned).toPrecedes
      (r.store.size_attachAll b.owned)
  refine ⟨fun id c hc => ?_, hold.metatype⟩
  have hpush : ((r.store.attachAll b.owned).push ⟨(r.registry.typeOf b.kind).1, 1, b⟩).find? id =
      some c := hc
  rw [Store.find?_push] at hpush
  split at hpush
  · cases hpush
    exact r.registry.lookup_settle (.kind b.kind) (b.kind.recipe.run none)
  · exact hold.object id c hpush

/-- All that a conversion may do is to request a descriptor. -/
theorem converting_cases {α : Type} (r : Realm) (expected : Option Kind) (result : Result α) :
    r.converting expected result = r ∨ ∃ k, r.converting expected result = r.describe k := by
  cases result with
  | ok x => exact .inl rfl
  | error e =>
    cases expected with
    | none => exact .inl (ite_self r)
    | some k =>
      cases hn : e.namesExpected with
      | true => exact .inr ⟨k, if_pos hn⟩
      | false => exact .inl (if_neg (by rw [hn]; exact Bool.false_ne_true))

theorem described_shareAll (h : r.Described) (hs : List Handle) : (r.shareAll hs).Described :=
  h.of_precedes (.refl _) (Store.Grows.attachAll r.store hs).toPrecedes (r.store.size_attachAll hs)

theorem described_releaseAll (h : r.Described) (hs : List Handle) : (r.releaseAll hs).Described :=
  h.of_precedes (.refl _) (r.store.precedes_releaseAll hs) (r.store.size_releaseAll hs)

theorem described_replace (h : r.Described) (id : Nat) (c : Contents) :
    (r.replace id c).Described := by
  have hspares : r.store.Spares (fun _ _ => True) (r.store.replace id c) := .replace _ trivial
  exact h.of_precedes (.refl _) hspares.toPrecedes (r.store.size_replace id c)

theorem Gives.trans (h : r.Gives os hs r') (h' : r'.Gives (hs ++ os) hs' r'') :
    r.Gives os (hs' ++ hs) r'' where
  sound := by simpa using h'.sound
  grows := h.grows.trans h'.grows
  registry := h.registry.trans h'.registry
  described hr := h'.described (h.described hr)

theorem Gives.perm (h : r.Gives os hs r') (hp : hs'.Perm hs) : r.Gives os hs' r' where
  sound := h.sound.congr fun id => by rw [List.count_append, List.count_append, hp.count_eq]
  grows := h.grows
  registry := h.registry
  described := h.described

theorem gives_nothing (h : r.store.Sound os) : r.Gives os [] r :=
  ⟨h, .refl _, .refl _, id⟩

theorem gives_null (h : r.store.Sound os) : r.Gives os [.null] r :=
  ⟨h.congr fun id => by simp, .refl _, .refl _, id⟩

theorem describe_gives (h : r.store.Sound os) (k : Kind) : r.Gives os [] (r.describe k) where
  sound := h
  grows := .refl _
  registry := r.registry.request_extends (.kind k) k.recipe
  described hr := hr.of_registry (r.registry.request_keeps (.kind k) k.recipe)

theorem converting_gives {α : Type} (h : r.store.Sound os) (expected : Option Kind)
    (result : Result α) : r.Gives os [] (r.converting expected result) := by
  rcases r.converting_cases expected result with hr | ⟨k, hr⟩ <;> rw [hr]
  · exact gives_nothing h
  · exact describe_gives h k

theorem registry_make (r : Realm) (b : Body) : r.registry.Extends (r.make b).2.registry :=
  r.registry.request_extends (.kind b.kind) b.kind.recipe

theorem make_gives (h : r.store.Sound os) {b : Body} (hb : r.store.SafeAll b.owned)
    (hbare : b.IsBare) : r.Gives os [(r.make b).1] (r.make b).2 where
  sound := h.alloc hb _
  grows := .alloc _ _ hbare
  registry := r.registry_make b
  described hr := described_make hr b

theorem body?_make (r : Realm) (b : Body) : (r.make b).2.store.body? (r.make b).1 = some b := by
  simp [make, Store.body?, Store.find?_alloc]

theorem share_gives (h : r.store.Sound os) {x : Handle} (hx : r.store.Safe x) :
    r.Gives os [(r.share x).1] (r.share x).2 where
  sound := h.attach hx
  grows := .attach _ _
  registry := .refl _
  described hr := described_shareAll hr [x]

theorem shareAll_gives (h : r.store.Sound os) (hx : r.store.SafeAll hs) :
    r.Gives os hs (r.shareAll hs) where
  sound := h.attachAll hx
  grows := .attachAll _ _
  registry := .refl _
  described hr := described_shareAll hr hs

/-- The state of a new pair before the caller lets go of the handles that the pair holds. -/
theorem make_pair_sound {k v : Handle} (h : r.store.Sound (k :: v :: os)) :
    r.store.Grows (r.make (.pair k v)).2.store ∧
      (r.make (.pair k v)).2.store.Sound ([k, v] ++ (r.make (.pair k v)).1 :: os) := by
  have hs : r.store.SafeAll (Body.pair k v).owned :=
    fun x hx => h.safe_of_mem (List.mem_append_left os hx)
  have hm := make_gives h hs trivial
  refine ⟨hm.grows, hm.sound.congr fun id => ?_⟩
  simp only [List.count_append, List.count_cons]
  omega

/-- The pair holds both handles before the caller lets go of them. -/
theorem grows_makePair {k v : Handle} (h : r.store.Sound (k :: v :: os)) :
    (r.make (.pair k v)).2.store.Grows (r.makePair k v).2.store := by
  refine (make_pair_sound h).2.grows_releaseAll fun id hid => .inr ?_
  obtain ⟨c, hc, hb⟩ := Option.map_eq_some_iff.mp (body?_make r (.pair k v))
  exact ⟨_, c, hc, by rwa [hb]⟩

theorem makePair_gives {k v : Handle} (h : r.store.Sound (k :: v :: os)) :
    r.Gives os [(r.makePair k v).1] (r.makePair k v).2 where
  sound := (make_pair_sound h).2.releaseAll
  grows := (make_pair_sound h).1.trans (grows_makePair h)
  registry := r.registry_make (.pair k v)
  described hr := described_releaseAll (described_make hr (.pair k v)) [k, v]

theorem body?_makePair {k v : Handle} (h : r.store.Sound (k :: v :: os)) :
    (r.makePair k v).2.store.body? (r.makePair k v).1 = some (.pair k v) :=
  (grows_makePair h).body? (body?_make r (.pair k v))

theorem toObject_gives (h : r.store.Sound os) :
    (t : ElementType) → (v : t.Value) → r.store.SafeAll (t.owned v) →
      r.Gives os [(r.toObject t v).1] (r.toObject t v).2
  | .scalar _, _, _ => make_gives h r.store.safeAll_nil trivial
  | .string, _, _ => make_gives h r.store.safeAll_nil trivial
  | .object, x, hv => share_gives h (hv x (List.mem_singleton_self x))
  | .key, x, hv => share_gives h (hv x (List.mem_singleton_self x))
  | .pointer _, x, hv => share_gives h (hv x (List.mem_singleton_self x))
  | .option _, none, _ => gives_null h
  | .option t, some v, hv => toObject_gives h t v hv

theorem toObjects_gives (h : r.store.Sound os) (t : ElementType) (vs : List t.Value)
    (hv : r.store.SafeAll (vs.flatMap t.owned)) :
    r.Gives os (r.toObjects t vs).1 (r.toObjects t vs).2 := by
  induction vs generalizing r os with
  | nil => exact gives_nothing h
  | cons v vs ih =>
    have h₁ := toObject_gives h t v fun x hx => hv x (List.mem_append_left _ hx)
    have h₂ := ih h₁.sound fun x hx => h₁.grows.safe (hv x (List.mem_append_right _ hx))
    exact (h₁.trans h₂).perm (List.perm_append_singleton _ _).symm

theorem toPairs_gives (h : r.store.Sound os) (k v : ElementType)
    (ss : List (Slot k.Value v.Value))
    (hv : r.store.SafeAll (ss.flatMap fun s => k.owned s.key ++ v.owned s.value)) :
    r.Gives os (r.toPairs k v ss).1 (r.toPairs k v ss).2 := by
  induction ss generalizing r os with
  | nil => exact gives_nothing h
  | cons s ss ih =>
    have h₁ := toObject_gives h k s.key fun x hx =>
      hv x (List.mem_append_left _ (List.mem_append_left _ hx))
    have h₂ := toObject_gives h₁.sound v s.value fun x hx =>
      h₁.grows.safe (hv x (List.mem_append_left _ (List.mem_append_right _ hx)))
    have h₃ := makePair_gives ((h₁.trans h₂).perm (.swap ..)).sound
    have hg := (h₁.trans h₂).grows.trans h₃.grows
    have hr := (h₁.trans h₂).registry.trans h₃.registry
    have hd := fun hr => h₃.described ((h₁.trans h₂).described hr)
    have h₄ := ih h₃.sound fun x hx => hg.safe (hv x (List.mem_append_right _ hx))
    exact ((Gives.mk h₃.sound hg hr hd).trans h₄).perm (List.perm_append_singleton _ _).symm

theorem enumerate_gives (h : r.store.Sound os) (c : Contents) (hc : r.store.SafeAll c.owned) :
    r.Gives os (r.enumerate c).1 (r.enumerate c).2 := by
  cases c with
  | list t xs => exact toObjects_gives h t xs hc
  | queue t xs => exact toObjects_gives h t xs hc
  | hashSet t ss =>
    refine toObjects_gives h t _ ?_
    rwa [List.flatMap_map]
  | dictionary k v ss => exact toPairs_gives h k v ss hc

end Realm

end CountedObjects
