import CountedObjects.Proofs.Session.Action
import CountedObjects.Session.Literal

/-! Actions that make objects, share them and list elements. Each handle that they give out is held
by the step. -/
namespace CountedObjects

/-- The handle that an operation gives out if it succeeds. -/
def Realm.given : Result Handle → List Handle
  | .ok h => [h]
  | .error _ => []

namespace Action

open Session (Leads Builds)

variable {s t : Session} {h : Handle} {f : Realm → Handle × Realm} {b : Body} {scope : Scope}

theorem builds_of_gives {r : Realm} {hs : List Handle} (hg : s.realm.Gives s.roots hs r) :
    s.Builds { s with realm := r, held := hs ++ s.held } :=
  ⟨hg.grows, hg.registry, hg.described, List.suffix_append _ _, rfl, rfl, rfl, rfl⟩

theorem holding_sound {r : Realm} {hs : List Handle} (hr : r.store.Sound (hs ++ s.roots)) :
    ({ s with realm := r, held := hs ++ s.held } : Session).Sound := by
  apply hr.congr
  intro id
  simp only [List.count_append, Session.count_roots]
  omega

/-- What is known of a conversion that succeeds is known of the state that it started from. -/
theorem convert_ensures {α : Type} (hs : s.Sound) (k : Option Kind) (g : Store → Result α) :
    Ensures Builds (convert k g) s fun x t => g s.store = .ok x ∧ t = s := by
  have hg := Realm.converting_gives hs k (g s.store)
  refine ⟨?_, ?_, fun x hx => ?_⟩
  · rw [convert_run]
    exact hg.sound
  · rw [convert_run]
    exact builds_of_gives hg
  · have hok : g s.store = .ok x := by rwa [convert_run] at hx
    exact ⟨hok, by rw [convert_run_ok hok]⟩

/-- A conversion that ends an action. -/
theorem Ensures.converted {α : Type} {k : Option Kind} {g : Store → Result α}
    {P : α → Session → Prop} (hs : s.Sound) (hp : ∀ x, g s.store = .ok x → P x s) :
    Ensures Builds (convert k g) s P :=
  (convert_ensures hs k g).mono fun x _ hx => hx.2 ▸ hp x hx.1

section

variable {α β : Type} {R : Session → Session → Prop} [Std.Refl R] [Trans Builds R R]
  {Q : β → Session → Prop}

theorem Ensures.convert {k : Option Kind} {g : Store → Result α} {f : α → Action β} (hs : s.Sound)
    (hf : ∀ x, g s.store = .ok x → Ensures R (f x) s Q) : Ensures R (convert k g >>= f) s Q :=
  (convert_ensures hs k g).bind fun x _ _ _ hx => hx.2 ▸ hf x hx.1

theorem Ensures.cast {k : Kind} {f : Handle → Action β} (hs : s.Sound)
    (hf : ∀ o, s.store.cast k h = .ok o → Ensures R (f o) s Q) : Ensures R (cast k h >>= f) s Q :=
  .convert hs hf

end

theorem obtain_ensures (hg : s.realm.Gives s.roots [(f s.realm).1] (f s.realm).2) :
    Ensures Builds (obtain f) s fun h t => t.Holds h where
  sound := holding_sound hg.sound
  follows := builds_of_gives hg
  result x hx := by
    cases hx
    exact Session.holds_of_mem (List.mem_cons_self ..)

theorem attempt_run (f : Realm → Result Handle × Realm) (s : Session) :
    attempt f s = ((f s.realm).1,
      { s with realm := (f s.realm).2, held := Realm.given (f s.realm).1 ++ s.held }) := by
  unfold attempt
  rw [bind_ok (get_run s)]
  rcases f s.realm with ⟨e | h, r⟩ <;> rfl

theorem attempt_ensures {f : Realm → Result Handle × Realm}
    (hg : s.realm.Gives s.roots (Realm.given (f s.realm).1) (f s.realm).2) :
    Ensures Builds (attempt f) s fun h t => t.Holds h := by
  refine ⟨?_, ?_, ?_⟩ <;> rw [attempt_run]
  · exact holding_sound hg.sound
  · exact builds_of_gives hg
  · intro x hx
    refine Session.holds_of_mem (List.mem_append_left _ ?_)
    change (f s.realm).1 = .ok x at hx
    rw [hx]
    exact List.mem_singleton_self x

theorem make_ensures (hs : s.Sound) (hb : s.store.SafeAll b.owned) (hbare : b.IsBare) :
    Ensures Builds (make b) s fun h t => t.Holds h :=
  obtain_ensures (Realm.make_gives hs hb hbare)

/-- An object that holds nothing can be made in any state. -/
theorem make_ensures_of_isEmpty (hs : s.Sound) (hb : b.IsEmpty) :
    Ensures Builds (make b) s fun h t => t.Holds h :=
  make_ensures hs (by rw [hb.owned]; exact s.store.safeAll_nil) hb.bare

/-- A collection may be made with elements where its kind is in scope. -/
theorem makeCollection_ensures (hs : s.Sound) {c : Contents} (hc : s.store.SafeAll c.owned)
    (hw : ∀ id, s.store.cells.size ≤ id → scope.objects id (.collection c)) :
    Ensures (Leads scope) (make (.collection c)) s fun h t => t.Holds h := by
  have hb : s.store.SafeAll (Body.collection c).owned := hc
  have hm : (s.realm.make (.collection c)).2.store.Sound
      ([(s.realm.make (.collection c)).1] ++ s.roots) := Store.Sound.alloc hs hb _
  refine ⟨holding_sound hm, ?_, fun h hh => ?_⟩
  · exact .of_store (.alloc _ _ hw) (Realm.described_make · _) (List.suffix_cons _ _) rfl
  · cases hh
    exact Session.holds_of_mem (List.mem_cons_self ..)

theorem share_ensures (hs : s.Sound) (hh : s.store.Safe h) :
    Ensures Builds (share h) s fun h t => t.Holds h :=
  obtain_ensures (Realm.share_gives hs hh)

theorem toObject_ensures (hs : s.Sound) (t : ElementType) (v : t.Value)
    (hv : s.store.SafeAll (t.owned v)) : Ensures Builds (toObject t v) s fun h t => t.Holds h :=
  obtain_ensures (Realm.toObject_gives hs t v hv)

theorem enumerate_run_none (hc : s.store.contents? h = none) :
    enumerate h s = (.ok none, s) := by
  have he : s.realm.enumerate? h = none := congrArg (Option.map s.realm.enumerate) hc
  unfold enumerate
  rw [bind_ok (get_run s), he]
  rfl

theorem enumerate_run_some {c : Contents} (hc : s.store.contents? h = some c) :
    enumerate h s = (.ok (some (s.realm.enumerate c).1), { s with
      realm := (s.realm.enumerate c).2
      held := (s.realm.enumerate c).1 ++ s.held }) := by
  have he : s.realm.enumerate? h = some (s.realm.enumerate c) :=
    congrArg (Option.map s.realm.enumerate) hc
  unfold enumerate
  rw [bind_ok (get_run s), he]
  rfl

theorem enumerate_ensures (hs : s.Sound) (h : Handle) :
    Ensures Builds (enumerate h) s fun o t => ∀ x ∈ o.getD [], t.Holds x := by
  cases hc : s.store.contents? h with
  | none =>
    exact Ensures.of_run (.pure hs (List.forall_mem_nil _)) (enumerate_run_none hc)
  | some c =>
    have hrun := enumerate_run_some hc
    have hg := Realm.enumerate_gives (r := s.realm) hs c (hs.safeAll_contents hc)
    refine ⟨?_, ?_, ?_⟩ <;> rw [hrun]
    · exact holding_sound hg.sound
    · exact builds_of_gives hg
    · intro o ho x hx
      cases ho
      exact Session.holds_of_mem (List.mem_append_left _ hx)

theorem enumType_ensures (hs : s.Sound) (e : Enumeration) :
    Ensures Builds (enumType e) s fun _ _ => True :=
  have hr := s.realm.registry.request_extends e.id e.recipe
  have hd := fun hd : s.realm.Described =>
    hd.of_registry (s.realm.registry.request_keeps e.id e.recipe)
  ⟨hs, ⟨.refl _, hr, hd, List.suffix_rfl, rfl, rfl, rfl, rfl⟩, fun _ _ => trivial⟩

theorem replace_ensures (hs : s.Sound) {c : Contents} (hc : s.store.SafeAll c.owned) {id : Nat}
    (hw : scope.objects id (.collection c)) :
    Ensures (Leads scope) (replace id c) s fun _ t => t = s.mapRealm (·.replace id c) := by
  have ht : (s.mapRealm (·.replace id c)).Sound := Store.Sound.replace hs hc id
  exact .change ht (.of_store (.replace s.store hw) (Realm.described_replace · id c)
    List.suffix_rfl rfl)

theorem setHandle_ensures (hs : s.Sound) (name : String) (hh : s.store.Safe h) :
    Ensures (Leads scope) (change (·.setHandle name h)) s fun _ t => t = s.setHandle name h :=
  .change (Session.setHandle_sound hs hh name) (Session.leads_setHandle s name h)

theorem storeAs_ensures (hs : s.Sound) (hh : s.store.Safe h) (name : Option String) :
    Ensures (Leads scope) (storeAs name h) s fun _ _ => True := by
  cases name with
  | none => exact .pure hs trivial
  | some n => exact (setHandle_ensures hs n hh).mono fun _ _ _ => trivial

theorem deliver_ensures (hs : s.Sound) (hh : s.store.Safe h) (name : Option String) :
    Ensures (Leads scope) (deliver name h) s fun _ _ => True :=
  .query hs fun _ _ =>
    (storeAs_ensures hs hh name).map _

/-- What a step answers that shows an object and may store it under a name. -/
theorem deliver_run (o : Handle) (target : Option String) (s : Session) :
    deliver target o s = (s.store.view o, match s.store.view o, target with
      | .ok _, some n => s.setHandle n o
      | _, _ => s) := by
  have hview : view o s = (s.store.view o, s) := query_run _ s
  unfold deliver
  cases hv : s.store.view o with
  | error e => rw [bind_error (hv ▸ hview)]
  | ok x =>
    rw [bind_ok (hv ▸ hview)]
    cases target <;> rfl

theorem handle_deliver {x : View} (hv : s.store.view o = .ok x) (name : String) :
    (deliver (some name) o s).2.handle name = o := by
  rw [deliver_run, hv]
  exact Session.handle_setHandle s name o

theorem handle_deliver_of_ne {target : Option String} {name : String} (hn : target ≠ some name)
    (o : Handle) (s : Session) : (deliver target o s).2.handle name = s.handle name := by
  rw [deliver_run]
  cases s.store.view o with
  | error e => rfl
  | ok v =>
    cases target with
    | none => rfl
    | some n => exact Session.handle_setHandle_of_ne (fun e => hn (congrArg some e.symm)) s o

theorem map_deliver_run {α : Type} (o : Handle) (target : Option String) (g : View → α)
    (s : Session) :
    (do return g (← deliver target o) : Action α) s =
      ((s.store.view o).map g, (deliver target o s).2) := by
  have hdeliver := deliver_run o target s
  cases hv : s.store.view o with
  | error e =>
    rw [hv] at hdeliver
    rw [bind_error hdeliver, hdeliver]
    rfl
  | ok x =>
    rw [hv] at hdeliver
    rw [bind_ok hdeliver, hdeliver]
    rfl

theorem nest_ensures (hs : s.Sound) (hh : s.Holds h) (d : Nat) :
    Ensures Builds (nest d h) s fun h t => t.Holds h := by
  induction d generalizing s h with
  | zero => exact .pure hs hh
  | succ d ih =>
    have hp : s.store.SafeAll (Body.pair h .null).owned :=
      Store.safeAll_pair.mpr ⟨hs.safe_of_holds hh, Store.safe_null⟩
    exact (make_ensures hs hp trivial).bind fun p t ht _ hp => ih ht hp

theorem boxMember_ensures (hs : s.Sound) (e : Enumeration) (m : String × Int32) :
    Ensures Builds (boxMember e m) s fun h t => t.Holds h :=
  (enumType_ensures hs e).bind fun _ _ ht _ _ => make_ensures_of_isEmpty ht ⟨rfl, trivial⟩

end Action

/-! Written values. -/

theorem EnumValue.isEmpty_ofOrdinal {t : TypeHandle} {n : Int32} {b : Body}
    (hb : EnumValue.ofOrdinal t n = .ok b) : b.IsEmpty := by
  simp only [ofOrdinal, bind, Except.bind] at hb
  split at hb
  · cases hb
  · cases hb
    exact ⟨rfl, trivial⟩

theorem EnumValue.isEmpty_parse {t : TypeHandle} {text : String} {b : Body}
    (hb : EnumValue.parse t text = .ok b) : b.IsEmpty := by
  simp only [parse, bind, Except.bind] at hb
  split at hb
  · cases hb
  · split at hb
    · cases hb
      exact ⟨rfl, trivial⟩
    · cases hb

namespace Literal

open CountedObjects.Action Session

mutual

theorem build_ensures {s : Session} (hs : s.Sound) :
    (l : Literal) → Ensures Builds l.build s fun h t => t.Holds h
  | .null => .pure hs (holds_null s)
  | .scalar v => make_ensures_of_isEmpty hs ⟨rfl, trivial⟩
  | .text x => make_ensures_of_isEmpty hs ⟨rfl, trivial⟩
  | .plain => make_ensures_of_isEmpty hs ⟨rfl, trivial⟩
  | .tracked l => make_ensures_of_isEmpty hs ⟨rfl, trivial⟩
  | .animal => make_ensures_of_isEmpty hs ⟨rfl, trivial⟩
  | .dog => make_ensures_of_isEmpty hs ⟨rfl, trivial⟩
  | .handle n => .ask (share_ensures hs (hs.safe_handle n))
  | .type n => .ask (share_ensures hs (hs.safe_of_holds (holds_type s _)))
  | .member e n => by
    unfold build
    split
    · exact .pure hs (holds_null s)
    · exact boxMember_ensures hs e _
  | .ordinal t n => .ask (.ofObject hs fun _ hb =>
      make_ensures_of_isEmpty hs (EnumValue.isEmpty_ofOrdinal hb))
  | .parsed t x => .ask (.ofObject hs fun _ hb =>
      make_ensures_of_isEmpty hs (EnumValue.isEmpty_parse hb))
  | .assembled t tag ls => by
    unfold build
    apply (buildAll_ensures hs ls).bind
    intro hs t₁ ht₁ _ hhs
    apply Ensures.ask
    exact make_ensures ht₁ (fun x hx => ht₁.safe_of_holds (hhs x hx)) trivial
  | .pair k v => by
    unfold build
    apply (build_ensures hs k).bind
    intro key t₁ ht₁ _ hk
    apply (build_ensures ht₁ v).bind
    intro value t₂ ht₂ hl hv
    have hk : t₂.store.Safe key := ht₂.safe_of_holds (hk.mono hl.held)
    exact make_ensures ht₂ (Store.safeAll_pair.mpr ⟨hk, ht₂.safe_of_holds hv⟩) trivial
  | .nested d v => by
    unfold build
    exact (build_ensures hs v).bind fun h t ht _ hh => nest_ensures ht hh d
  | .present t v => by
    unfold build
    apply (build_ensures hs v).bind
    intro h t₁ ht₁ _ hh
    apply Ensures.convert ht₁
    intro x hx
    apply toObject_ensures ht₁ (.option t) (some x)
    intro y hy
    rw [t.owned_ofObject x hx y hy]
    exact ht₁.safe_of_holds hh
  | .missing t => toObject_ensures hs (.option t) none s.store.safeAll_nil

theorem buildAll_ensures {s : Session} (hs : s.Sound) :
    (ls : List Literal) → Ensures Builds (buildAll ls) s fun hs t => ∀ h ∈ hs, t.Holds h
  | [] => .pure hs (List.forall_mem_nil _)
  | l :: ls => by
    unfold buildAll
    apply (build_ensures hs l).bind
    intro h t₁ ht₁ _ hh
    refine (buildAll_ensures ht₁ ls).bind fun hs t₂ ht₂ hl hhs => .pure ht₂ ?_
    exact List.forall_mem_cons.mpr ⟨hh.mono hl.held, hhs⟩

end

variable {s : Session}

theorem element_ensures (hs : s.Sound) (t : ElementType) (l : Literal) :
    Ensures Builds (l.element t) s fun v u => ∀ x ∈ t.owned v, u.Holds x :=
  (build_ensures hs l).bind fun _ _ hu _ hh => .converted hu fun v hv x hx =>
    t.owned_ofObject v hv x hx ▸ hh

theorem elements_ensures (hs : s.Sound) (t : ElementType) (ls : List Literal) :
    Ensures Builds (Literal.elements t ls) s fun vs u => ∀ x ∈ vs.flatMap t.owned, u.Holds x :=
  (buildAll_ensures hs ls).bind fun _ _ hu _ hhs => .converted hu fun _ hv x hx =>
    hhs x (ElementType.owned_ofObjects hv x hx)

end Literal

end CountedObjects
