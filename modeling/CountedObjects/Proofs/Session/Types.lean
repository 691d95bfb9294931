import CountedObjects.Proofs.Session.Building
import CountedObjects.Session.Activation
import CountedObjects.Session.Types

/-! Steps on types, enumerations and activators keep a session sound. Registrations change tables
alone; constructors give out handles like any other operation that makes objects. None of them
changes an object that is there. -/
namespace CountedObjects

theorem Kind.isEmpty_initial? {k : Kind} {b : Body} (hb : k.initial? = some b) : b.IsEmpty := by
  constructor <;> cases k <;> cases hb <;> first | rfl | trivial

section

variable {r : Realm} {os hs : List Handle}

theorem Store.SafeAll.getD {s : Store} (h : s.SafeAll hs) (i : Nat) :
    s.Safe (hs[i]?.getD .null) := by
  cases hi : hs[i]? with
  | none => exact Store.safe_null
  | some x => exact h x (List.mem_of_getElem? hi)

/-- Whatever a body does with its arguments, a handle that it gives out is counted. -/
theorem Construction.run_gives (h : r.store.Sound os) (hx : r.store.SafeAll hs) (d : Descriptor)
    (c : Construction) : r.Gives os (Realm.given (run d c hs r).1) (run d c hs r).2 := by
  cases c with
  | assemble tag => exact Realm.make_gives h hx trivial
  | nothing => exact Realm.gives_null h
  | argument i => exact Realm.share_gives h (hx.getD i)
  | refuse => exact Realm.gives_nothing h
  | convert i t =>
    simp only [run]
    split
    · next v hv =>
      apply Realm.toObject_gives h t v
      intro x hxv
      rw [t.owned_ofObject v hv x hxv]
      exact hx.getD i
    · next e _ => exact Realm.converting_gives h t.required? (.error e : Result t.Value)
  | fresh k =>
    simp only [run]
    split
    · next b hb =>
      have he := Kind.isEmpty_initial? hb
      refine Realm.make_gives h ?_ he.bare
      rw [he.owned]
      exact r.store.safeAll_nil
    · exact Realm.gives_null h

theorem Constructor.invoke_gives (h : r.store.Sound os) (hx : r.store.SafeAll hs)
    (c : Constructor Construction) :
    r.Gives os (Realm.given (c.invoke Construction.run hs r).1)
      (c.invoke Construction.run hs r).2 := by
  unfold invoke
  split
  · exact Construction.run_gives h hx _ _
  · exact Realm.gives_nothing h

end

namespace Activator

variable {r : Realm} {os hs : List Handle}

theorem create_gives (h : r.store.Sound os) (hx : r.store.SafeAll hs) (a : Activator Construction)
    (t : TypeHandle) :
    r.Gives os (Realm.given (a.create Construction.run t hs r).1)
      (a.create Construction.run t hs r).2 := by
  unfold create
  split
  · exact Constructor.invoke_gives h hx _
  · exact Realm.gives_nothing h

theorem createByName_gives (h : r.store.Sound os) (hx : r.store.SafeAll hs)
    (a : Activator Construction) (name : String) :
    r.Gives os (Realm.given (a.createByName Construction.run name hs r).1)
      (a.createByName Construction.run name hs r).2 := by
  unfold createByName
  split
  · exact create_gives h hx a _
  · exact Realm.gives_nothing h

theorem isEmpty_parseEnum {β : Type} {a : Activator β} {name text : String} {b : Body}
    (hb : a.parseEnum name text = .ok b) : b.IsEmpty := by
  unfold parseEnum at hb
  cases hd : a.getType name with
  | error e => rw [hd] at hb; cases hb
  | ok d =>
    rw [hd] at hb
    exact EnumValue.isEmpty_parse hb

theorem store_make (o : ActivatorOptions) (r : Realm) : (make o r).2.store = r.store := by
  unfold make
  refine List.foldlRecOn
    (motive := fun p : Activator Construction × Realm => p.2.store = r.store) _ _ ?_ ?_
  · rfl
  · intro p hp k _
    exact hp

theorem make_keeps (o : ActivatorOptions) (r : Realm) :
    r.registry.Keeps (make o r).2.registry := by
  have hroots := (r.registry.request_keeps .object objectRecipe).trans
    (r.registry.objectType.2.request_keeps .enumRoot enumRootRecipe)
  unfold make
  refine List.foldlRecOn
    (motive := fun p : Activator Construction × Realm => r.registry.Keeps p.2.registry)
    _ _ hroots ?_
  intro p hp k _
  exact hp.trans (p.2.registry.request_keeps (.kind k) k.recipe)

end Activator

namespace Action

open Session (Leads Builds)

variable {s t : Session}

/-- A change of the tables that no handle is in, and an answer. -/
theorem set_ensures {x : Answer} (hs : s.Sound) (hst : t.store = s.store)
    (hk : s.realm.registry.Keeps t.realm.registry) (hr : t.roots = s.roots)
    (he : t.enumerators = s.enumerators) (hh : t.held = s.held) :
    Ensures (Leads .nothing) (do set t; return x) s fun _ _ => True := by
  have ht : t.Sound := by
    unfold Session.Sound
    rwa [hst, hr]
  have hd : s.realm.Described → t.realm.Described := by
    intro hd
    have ht : Realm.Described ⟨t.realm.registry, s.realm.store⟩ := hd.of_registry hk
    rwa [show s.realm.store = t.realm.store from hst.symm] at ht
  have hl : Leads .nothing s t := .of_store (hst ▸ .refl _) hd (hh ▸ List.suffix_rfl) he
  exact (Ensures.set ht hl).map _

theorem demandType_reads (name : String) : Reads (demandType name) :=
  (Reads.ask _).bind fun _ => .ofResult _

theorem typeStep_ensures (hs : s.Sound) (step : TypeStep) :
    Ensures (Leads .nothing) (typeStep step) s fun _ _ => True := by
  cases step with
  | new target id space name revisions =>
    apply Ensures.get
    exact set_ensures hs rfl (.refl _) rfl rfl rfl
  | info type | name type n | ordinal type name =>
    exact .bind_reads hs (demandType_reads _) fun _ _ => .pure hs trivial
  | base type =>
    apply Ensures.bind_reads hs (demandType_reads _)
    intro d _
    split
    · exact .pure hs trivial
    · exact .ask (.pure hs trivial)
  | subclass type of | assignable type of =>
    apply Ensures.bind_reads hs (demandType_reads _)
    intro _ _
    apply Ensures.bind_reads hs (demandType_reads _)
    intro _ _
    apply Ensures.ofResult hs
    intro _ _
    exact .pure hs trivial
  | compare type of =>
    apply Ensures.bind_reads hs (demandType_reads _)
    intro _ _
    apply Ensures.bind_reads hs (demandType_reads _)
    intro _ _
    apply Ensures.ask
    exact .pure hs trivial
  | lookup type =>
    apply Ensures.bind_reads hs (demandType_reads _)
    intro d _
    apply Ensures.ask
    split
    · exact .pure hs trivial
    · exact .ask (.pure hs trivial)

theorem demandEnumValue_ensures (hs : s.Sound) (h : String) :
    Ensures Builds (demandEnumValue h) s fun _ _ => True :=
  .ask (.convert hs fun _ _ => .reads hs (.query _))

theorem enumStep_ensures (hs : s.Sound) (step : EnumStep) :
    Ensures (Leads .nothing) (enumStep step) s fun _ _ => True := by
  cases step with
  | unbox h e =>
    apply Ensures.ask
    split
    · exact .throw hs _
    · apply (enumType_ensures hs e).bind
      intro d t ht _ _
      apply Ensures.query ht
      intro _ _
      exact .pure ht trivial
  | member h e =>
    apply (demandEnumValue_ensures hs h).bind
    intro p t ht _ _
    apply (enumType_ensures ht e).bind
    intro d u hu _ _
    apply Ensures.ofObject hu
    intro _ _
    exact .pure hu trivial
  | ofOrdinal e n =>
    simp only [enumStep]
    split
    · exact .pure hs trivial
    · next m _ =>
      apply (enumType_ensures hs e).bind
      intro d t ht _ _
      have hb : (Body.enumValue d m.2).IsEmpty := ⟨rfl, trivial⟩
      apply (make_ensures_of_isEmpty ht hb).bind
      intro o u hu _ _
      apply Ensures.query hu
      intro _ _
      exact .pure hu trivial
  | parts h => exact (demandEnumValue_ensures hs h).bind fun _ _ ht _ _ => .pure ht trivial

theorem constructorAt_reads (a type : String) (i : Nat) : Reads (constructorAt a type i) := by
  apply (Reads.ask _).bind
  intro _
  apply (Reads.ofResult _).bind
  intro d
  apply (Reads.ask _).bind
  intro cs
  split
  · exact .pure _
  · exact .throw _

theorem activatorStep_ensures (hs : s.Sound) (step : ActivatorStep) :
    Ensures (Leads .nothing) (activatorStep step) s fun _ _ => True := by
  cases step with
  | new a o =>
    apply Ensures.get
    have hkeeps := Activator.make_keeps o s.realm
    exact set_ensures hs (Activator.store_make o s.realm) hkeeps rfl rfl rfl
  | registerType a type =>
    apply Ensures.get
    apply Ensures.ofResult hs
    intro _ _
    exact set_ensures hs rfl (.refl _) rfl rfl rfl
  | registerDefault a k =>
    apply Ensures.get
    exact set_ensures hs rfl (s.realm.registry.request_keeps (.kind k) k.recipe) rfl rfl rfl
  | registerEnum a e =>
    apply (enumType_ensures hs e).bind
    intro d t ht _ _
    have hl : Leads .nothing t (t.setActivator a ((t.activator a).bindType d)) :=
      .of_store (.refl _) id List.suffix_rfl rfl
    exact (Ensures.change ht hl).andThen fun _ _ hu _ _ => .ask (.pure hu trivial)
  | registerConstructor a type parameters b =>
    apply Ensures.get
    apply Ensures.ofResult hs
    intro _ _
    exact set_ensures hs rfl (.refl _) rfl rfl rfl
  | getType a name =>
    exact .ask (.ofObject hs fun _ _ => .ask (.pure hs trivial))
  | constructors a type =>
    exact .ask (.ofResult hs fun _ _ => .ask (.pure hs trivial))
  | admits a type i arguments derived =>
    apply (Literal.buildAll_ensures hs arguments).bind
    intro _ _ ht _ _
    apply Ensures.bind_reads ht (constructorAt_reads a type i)
    intro _ _
    apply Ensures.query ht
    intro _ _
    exact .pure ht trivial
  | invoke a type i arguments =>
    apply (Literal.buildAll_ensures hs arguments).bind
    intro xs t ht _ hxs
    apply Ensures.bind_reads ht (constructorAt_reads a type i)
    intro c _
    have hsafe : t.store.SafeAll xs := fun x hx => ht.safe_of_holds (hxs x hx)
    apply (attempt_ensures (Constructor.invoke_gives (r := t.realm) ht hsafe c)).bind
    intro _ u hu _ _
    apply Ensures.query hu
    intro _ _
    exact .pure hu trivial
  | create a type arguments target =>
    apply (Literal.buildAll_ensures hs arguments).bind
    intro xs t ht _ hxs
    have hsafe : t.store.SafeAll xs := fun x hx => ht.safe_of_holds (hxs x hx)
    apply Ensures.get
    apply (attempt_ensures (Activator.create_gives (r := t.realm) ht hsafe _ _)).bind
    intro o u hu _ ho
    exact (deliver_ensures hu (hu.safe_of_holds ho) _).map _
  | createByName a name arguments target =>
    apply (Literal.buildAll_ensures hs arguments).bind
    intro xs t ht _ hxs
    have hsafe : t.store.SafeAll xs := fun x hx => ht.safe_of_holds (hxs x hx)
    apply Ensures.get
    apply (attempt_ensures (Activator.createByName_gives (r := t.realm) ht hsafe _ _)).bind
    intro o u hu _ ho
    exact (deliver_ensures hu (hu.safe_of_holds ho) _).map _
  | parseEnum a name text target =>
    apply Ensures.ask
    apply Ensures.ofObject hs
    intro b hb
    apply (make_ensures_of_isEmpty hs (Activator.isEmpty_parseEnum hb)).bind
    intro o u hu _ ho
    exact (deliver_ensures hu (hu.safe_of_holds ho) _).map _
  | summary a => exact .ask (.pure hs trivial)

end Action

end CountedObjects
