import CountedObjects.Proofs.Session.Types

/-! Descriptors that are flagged as enumerations. The table lists such a descriptor under every type
that is no kind of objects and neither root, and enum values are made of such descriptors only. -/
namespace CountedObjects

/-- A type that objects have, or one of the two roots. -/
def TypeId.isReserved : TypeId → Bool
  | object | enumRoot | kind _ => true
  | enumeration _ | custom _ => false

/-- An enumeration that is no type of objects too. -/
def Enumeration.IsApart (e : Enumeration) : Prop := e.id.isReserved = false

instance (e : Enumeration) : Decidable e.IsApart := inferInstanceAs (Decidable (_ = _))

/-- If the body is an enum value, its descriptor is one of an enumeration. -/
def Body.IsFlagged (b : Body) : Prop := ∀ d n, b = .enumValue d n → d.isEnum = true

/-- A recipe that requests reserved types only. -/
def Recipe.Reserves : Recipe → Prop
  | finish _ => True
  | derive i other rest | also i other rest =>
    i.isReserved = true ∧ other.Reserves ∧ rest.Reserves

theorem Body.isFlagged_of_kind {b : Body} (h : b.kind ≠ .enumValue) : b.IsFlagged := by
  rintro d n rfl
  exact absurd rfl h

namespace Registry

variable {r : Registry} {i : TypeId} {draft : Draft} {base : TypeHandle} {e : Enumeration}

def Flagged (r : Registry) : Prop :=
  ∀ i d, r.lookup i = some d → i.isReserved = false → d.isEnum = true

theorem flagged_bind (h : r.Flagged) (hi : i.isReserved = false → draft.members.isSome = true) :
    (r.bind i draft base).2.Flagged := by
  cases hnow : r.lookup i with
  | some d =>
    rw [bind, hnow]
    exact h
  | none =>
    intro j d hd hj
    rw [lookup_bind hnow] at hd
    split at hd
    · next hji =>
      obtain rfl := Option.some.inj hd
      have hdraft : (r.bind i draft base).1.draft = draft := by
        rw [bind_of_none hnow]
        rcases base with _ | b <;> rfl
      rw [Descriptor.isEnum, hdraft]
      exact hi (hji ▸ hj)
    · exact h j d hd hj

theorem flagged_settle {build : Registry → (Draft × TypeHandle) × Registry} (h : r.Flagged)
    (hbuild : (build r).2.Flagged)
    (hi : i.isReserved = false → (build r).1.1.members.isSome = true) :
    (r.settle i build).2.Flagged := by
  cases hl : r.lookup i with
  | some d =>
    rw [settle_of_some hl]
    exact h
  | none =>
    rw [settle_of_none hl]
    exact flagged_bind hbuild hi

/-- By induction on the recipe: what it requests on the way is reserved. -/
theorem flagged_run {recipe : Recipe} (hrecipe : recipe.Reserves) (h : r.Flagged)
    (base : TypeHandle) : (recipe.run base r).2.Flagged := by
  induction recipe generalizing base r with
  | finish draft => exact h
  | derive i other rest ihother ihrest | also i other rest ihother ihrest =>
    obtain ⟨hi, hother, hrest⟩ := hrecipe
    have hsettle : (r.settle i (other.run none)).2.Flagged :=
      flagged_settle h (ihother hother h none) fun hfalse => by rw [hi] at hfalse; cases hfalse
    exact ihrest hrest hsettle _

theorem flagged_request {recipe : Recipe} (hrecipe : recipe.Reserves) (h : r.Flagged)
    (hi : i.isReserved = false → (recipe.run none r).1.1.members.isSome = true) :
    (r.request i recipe).2.Flagged :=
  flagged_settle h (flagged_run hrecipe h none) hi

theorem flagged_typeOf (h : r.Flagged) (k : Kind) : (r.typeOf k).2.Flagged := by
  have hrecipe : k.recipe.Reserves := by
    refine ⟨rfl, trivial, ?_⟩
    split
    · exact ⟨rfl, ⟨rfl, trivial, trivial⟩, trivial⟩
    · trivial
  exact flagged_request hrecipe h fun hfalse => by cases hfalse

theorem enumRootRecipe_reserves : enumRootRecipe.Reserves := ⟨rfl, trivial, trivial⟩

theorem flagged_enumType (h : r.Flagged) (e : Enumeration) : (r.enumType e).2.Flagged :=
  flagged_request ⟨rfl, enumRootRecipe_reserves, trivial⟩ h fun _ => rfl

/-- An enumeration that is no type of objects gets a descriptor of an enumeration. -/
theorem isEnum_enumType (h : r.Flagged) (he : e.IsApart) : (r.enumType e).1.isEnum = true :=
  flagged_enumType h e e.id _ (lookup_settle r e.id (e.recipe.run none)) he

theorem flagged_roots (h : r.Flagged) : r.objectType.2.enumRootType.2.Flagged := by
  have hobject : r.objectType.2.Flagged :=
    flagged_request trivial h fun hfalse => by cases hfalse
  exact flagged_request enumRootRecipe_reserves hobject fun hfalse => by cases hfalse

end Registry

/-- All descriptors of enum values and all that are listed for enumerations are flagged. -/
structure Realm.Flagged (r : Realm) : Prop where
  registry : r.registry.Flagged
  bodies : ∀ id c, r.store.find? id = some c → c.body.IsFlagged

namespace Realm

variable {r : Realm} {b : Body}

theorem Flagged.of_precedes (h : r.Flagged) {t : Store} (hp : r.store.Precedes t)
    (hsize : t.cells.size = r.store.cells.size) : Flagged ⟨r.registry, t⟩ := by
  refine ⟨h.registry, fun id c hc d n hb => ?_⟩
  obtain ⟨c', hc', hcc⟩ := hp.cell id c (hsize ▸ Store.lt_size_of_find? hc) hc
  have hbody := hcc.body
  rw [hb] at hbody
  cases hb' : c'.body with
  | enumValue d' n' =>
    rw [hb'] at hbody
    cases hbody
    exact h.bodies id c' hc' d n hb'
  | _ =>
    rw [hb'] at hbody
    cases hbody

theorem Flagged.of_registry (h : r.Flagged) {x : Registry} (hx : x.Flagged) :
    Flagged ⟨x, r.store⟩ :=
  ⟨hx, h.bodies⟩

theorem flagged_shareAll (h : r.Flagged) (hs : List Handle) : (r.shareAll hs).Flagged :=
  h.of_precedes (Store.Grows.attachAll r.store hs).toPrecedes (r.store.size_attachAll hs)

theorem flagged_share (h : r.Flagged) (x : Handle) : (r.share x).2.Flagged :=
  h.of_precedes (Store.Grows.attach r.store x).toPrecedes (r.store.size_attach x)

theorem flagged_releaseAll (h : r.Flagged) (hs : List Handle) : (r.releaseAll hs).Flagged :=
  h.of_precedes (r.store.precedes_releaseAll hs) (r.store.size_releaseAll hs)

theorem flagged_replace (h : r.Flagged) (id : Nat) (c : Contents) : (r.replace id c).Flagged := by
  have hspares : r.store.Spares (fun _ _ => True) (r.store.replace id c) := .replace _ trivial
  exact h.of_precedes hspares.toPrecedes (r.store.size_replace id c)

theorem flagged_make (h : r.Flagged) (hb : b.IsFlagged) : (r.make b).2.Flagged := by
  have hold : Flagged ⟨r.registry, r.store.attachAll b.owned⟩ := flagged_shareAll h b.owned
  refine ⟨Registry.flagged_typeOf h.registry b.kind, fun id c hc => ?_⟩
  have hpush : ((r.store.attachAll b.owned).push ⟨(r.registry.typeOf b.kind).1, 1, b⟩).find? id =
      some c := hc
  rw [Store.find?_push] at hpush
  split at hpush
  · cases hpush
    exact hb
  · exact hold.bodies id c hpush

theorem flagged_toObject (h : r.Flagged) : (t : ElementType) → (v : t.Value) →
    (r.toObject t v).2.Flagged
  | .scalar _, _ | .string, _ => flagged_make h (Body.isFlagged_of_kind Kind.noConfusion)
  | .object, o | .key, o | .pointer _, o => flagged_share h o
  | .option _, none => h
  | .option t, some v => flagged_toObject h t v

theorem flagged_toObjects (h : r.Flagged) (t : ElementType) (vs : List t.Value) :
    (r.toObjects t vs).2.Flagged := by
  induction vs generalizing r with
  | nil => exact h
  | cons v vs ih => exact ih (flagged_toObject h t v)

theorem flagged_toPairs (h : r.Flagged) (k v : ElementType) (ss : List (Slot k.Value v.Value)) :
    (r.toPairs k v ss).2.Flagged := by
  induction ss generalizing r with
  | nil => exact h
  | cons s ss ih =>
    have hkey := flagged_toObject h k s.key
    have hvalue := flagged_toObject hkey v s.value
    exact ih (flagged_releaseAll (flagged_make hvalue (Body.isFlagged_of_kind Kind.noConfusion)) _)

theorem flagged_enumerate (h : r.Flagged) (c : Contents) : (r.enumerate c).2.Flagged := by
  cases c with
  | list t xs | queue t xs => exact flagged_toObjects h t xs
  | hashSet t ss => exact flagged_toObjects h t _
  | dictionary k v ss => exact flagged_toPairs h k v ss

end Realm

theorem Kind.isFlagged_initial? {k : Kind} {b : Body} (hb : k.initial? = some b) : b.IsFlagged := by
  apply Body.isFlagged_of_kind
  cases k <;> cases hb <;> exact Kind.noConfusion

namespace EnumValue

variable {t : TypeHandle} {n : Int32} {text : String} {b : Body}

theorem isEnum_of_demandEnum {d : Descriptor} (h : demandEnum t = .ok d) : d.isEnum = true := by
  unfold demandEnum at h
  cases t with
  | none => cases h
  | some x =>
    cases hx : x.isEnum with
    | true =>
      simp [TypeHandle.get, hx, bind, Except.bind, pure, Except.pure] at h
      exact h ▸ hx
    | false => simp [TypeHandle.get, hx, bind, Except.bind, throw, throwThe,
        MonadExceptOf.throw] at h

theorem isFlagged_ofOrdinal (h : ofOrdinal t n = .ok b) : b.IsFlagged := by
  unfold ofOrdinal at h
  cases hd : demandEnum t with
  | error e => rw [hd] at h; cases h
  | ok d =>
    rw [hd] at h
    cases h
    rintro _ _ ⟨⟩
    exact isEnum_of_demandEnum hd

theorem isFlagged_parse (h : parse t text = .ok b) : b.IsFlagged := by
  unfold parse at h
  cases hd : demandEnum t with
  | error e => rw [hd] at h; cases h
  | ok d =>
    rw [hd] at h
    cases hn : d.ordinal? text with
    | none => simp [hn, bind, Except.bind, throw, throwThe, MonadExceptOf.throw] at h
    | some m =>
      simp only [hn, bind, Except.bind, pure, Except.pure, Except.ok.injEq] at h
      subst h
      rintro _ _ ⟨⟩
      exact isEnum_of_demandEnum hd

end EnumValue

namespace Realm

variable {r : Realm}

theorem flagged_describe (h : r.Flagged) (k : Kind) : (r.describe k).Flagged :=
  h.of_registry (Registry.flagged_typeOf h.registry k)

theorem flagged_converting {α : Type} (h : r.Flagged) (expected : Option Kind)
    (result : Result α) : (r.converting expected result).Flagged := by
  rcases r.converting_cases expected result with hr | ⟨k, hr⟩ <;> rw [hr]
  · exact h
  · exact flagged_describe h k

end Realm

theorem Construction.flagged_run {r : Realm} (h : r.Flagged) (d : Descriptor) (c : Construction)
    (hs : List Handle) : (run d c hs r).2.Flagged := by
  cases c with
  | assemble tag => exact Realm.flagged_make h (Body.isFlagged_of_kind Kind.noConfusion)
  | nothing | refuse => exact h
  | argument i => exact Realm.flagged_share h _
  | convert i t =>
    simp only [run]
    split
    · exact Realm.flagged_toObject h _ _
    · next e _ => exact Realm.flagged_converting h t.required? (.error e : Result t.Value)
  | fresh k =>
    simp only [run]
    split
    · next b hb => exact Realm.flagged_make h (Kind.isFlagged_initial? hb)
    · exact h

theorem Constructor.flagged_invoke {r : Realm} (h : r.Flagged) (c : Constructor Construction)
    (hs : List Handle) : (c.invoke Construction.run hs r).2.Flagged := by
  unfold invoke
  split
  · exact Construction.flagged_run h _ _ hs
  · exact h

namespace Activator

variable {r : Realm}

theorem isFlagged_parseEnum {β : Type} {a : Activator β} {name text : String} {b : Body}
    (h : a.parseEnum name text = .ok b) : b.IsFlagged := by
  unfold parseEnum at h
  cases hd : a.getType name with
  | error e => rw [hd] at h; cases h
  | ok d =>
    rw [hd] at h
    exact EnumValue.isFlagged_parse h

theorem flagged_make (o : ActivatorOptions) (h : r.Flagged) : (make o r).2.Flagged := by
  have hroots := h.of_registry (Registry.flagged_roots h.registry)
  unfold make
  refine List.foldlRecOn
    (motive := fun p : Activator Construction × Realm => p.2.Flagged) _ _ hroots ?_
  intro p hp k _
  exact Realm.flagged_describe hp k

theorem flagged_create (h : r.Flagged) (a : Activator Construction) (t : TypeHandle)
    (hs : List Handle) : (a.create Construction.run t hs r).2.Flagged := by
  unfold create
  split
  · exact Constructor.flagged_invoke h _ hs
  · exact h

theorem flagged_createByName (h : r.Flagged) (a : Activator Construction) (name : String)
    (hs : List Handle) : (a.createByName Construction.run name hs r).2.Flagged := by
  unfold createByName
  split
  · exact flagged_create h a _ hs
  · exact h

end Activator

end CountedObjects
