import CountedObjects.Proofs.Session.Tables
import CountedObjects.Proofs.Shown

/-! Actions that do whatever may fail before they store anything, so that one that fails has only
built objects, and actions that end a step and fail at most where they show something. Neither
changes an activator. -/
namespace CountedObjects

namespace Session

variable {s t : Session} {name : String}

theorem activators_clearHandle (s : Session) (name : String) :
    (s.clearHandle name).activators = s.activators := by
  unfold clearHandle
  split <;> rfl

theorem activators_takeNext? {h : Handle} (ht : s.takeNext? name = some (h, t)) :
    t.activators = s.activators := by
  unfold takeNext? at ht
  cases hi : (s.enumerator name).items with
  | nil => simp [hi] at ht
  | cons x xs =>
    simp only [hi, Option.some.injEq, Prod.mk.injEq] at ht
    obtain ⟨-, rfl⟩ := ht
    rfl

theorem activators_takeRest? {e : Enumerator} (ht : s.takeRest? name = some (e, t)) :
    t.activators = s.activators := by
  obtain ⟨_, -, hp⟩ := Option.map_eq_some_iff.mp ht
  cases hp
  rfl

end Session

namespace Action

open Session (Builds)

variable {α β : Type} {a : Action α} {f : α → Action β} {s : Session} {C : Fault → Prop}
  {P : α → Session → Prop}

/-- An action that has only built objects if it fails with one of the faults `C`, and that changes
no activator. -/
structure Cautious (C : Fault → Prop) (a : Action α) (s : Session) : Prop where
  builds : ∀ e, (a s).1 = .error e → C e → s.Builds (a s).2
  activators : (a s).2.activators = s.activators

/-- An action that fails with none of the faults `C` and changes no activator. It may store
something before it fails. -/
structure Closes (C : Fault → Prop) (a : Action α) : Prop where
  spares : ∀ s e, (a s).1 = .error e → ¬ C e
  activators : ∀ s, (a s).2.activators = s.activators

namespace Closes

theorem cautious (ha : Closes C a) : Cautious C a s :=
  ⟨fun e he hc => absurd hc (ha.spares s e he), ha.activators s⟩

/-- An action that always succeeds. -/
theorem of_ok (h : ∀ s, ∃ x t, a s = (.ok x, t) ∧ t.activators = s.activators) : Closes C a := by
  refine ⟨fun s e he => ?_, fun s => ?_⟩
  · obtain ⟨x, t, hrun, -⟩ := h s
    rw [hrun] at he
    cases he
  · obtain ⟨x, t, hrun, ht⟩ := h s
    rw [hrun, ht]

theorem pure (x : α) : Closes C (pure x) := of_ok fun s => ⟨x, s, rfl, rfl⟩

theorem ask (g : Session → α) : Closes C (ask g) := of_ok fun s => ⟨g s, s, rfl, rfl⟩

theorem change {g : Session → Session} (hg : ∀ s, (g s).activators = s.activators) :
    Closes C (change g) :=
  of_ok fun s => ⟨(), g s, rfl, hg s⟩

/-- An action may end with a change, which does not fail. -/
theorem change_return (g : Session → Session) (hg : ∀ s, (g s).activators = s.activators) (x : β) :
    Closes C (do Action.change g; return x) :=
  of_ok fun s => ⟨x, g s, rfl, hg s⟩

theorem replace (id : Nat) (c : Contents) : Closes C (replace id c) :=
  .change (g := fun s => s.mapRealm (·.replace id c)) fun _ => rfl

theorem obtain (g : Realm → Handle × Realm) : Closes C (obtain g) :=
  of_ok fun _ => ⟨_, _, rfl, rfl⟩

theorem bind (ha : Closes C a) (hf : ∀ x, Closes C (f x)) : Closes C (a >>= f) := by
  refine ⟨fun s e he => ?_, fun s => ?_⟩
  · have h := ha.spares s
    cases hrun : a s with
    | mk r t =>
      rw [hrun] at h
      cases r with
      | error e' =>
        rw [bind_error hrun f] at he
        cases he
        exact h e rfl
      | ok x =>
        rw [bind_ok hrun f] at he
        exact (hf x).spares t e he
  · have h := ha.activators s
    cases hrun : a s with
    | mk r t =>
      rw [hrun] at h
      cases r with
      | error e => rw [bind_error hrun f]; exact h
      | ok x => rw [bind_ok hrun f, (hf x).activators t]; exact h

theorem storeAs (target : Option String) (h : Handle) : Closes C (storeAs target h) := by
  cases target with
  | none => exact .pure ()
  | some n => exact .change (g := (·.setHandle n h)) fun _ => rfl

/-- A new collection gets a name. -/
theorem new (name : String) (b : Body) (x : β) : Closes C (do
    let h ← make b
    Action.change (·.setHandle name h)
    return x) :=
  (obtain _).bind fun h => change_return (·.setHandle name h) (fun _ => rfl) x

theorem map (ha : Closes C a) (g : α → β) : Closes C (do return g (← a)) :=
  ha.bind fun _ => .pure _

theorem mapM {xs : List α} (hf : ∀ x, Closes C (f x)) : Closes C (xs.mapM f) := by
  induction xs with
  | nil => exact .pure []
  | cons x xs ih =>
    rw [List.mapM_cons]
    exact (hf x).bind fun _ => ih.bind fun _ => .pure _

theorem mapOption {o : Option α} (hf : ∀ x, Closes C (f x)) : Closes C (o.mapM f) := by
  cases o with
  | none => exact .pure none
  | some x =>
    rw [Option.mapM_some, map_eq_pure_bind]
    exact (hf x).map some

/-! What an action may end with that has to spare a null dereference. -/

variable (hC : ¬ C (.abort .nullReference))

include hC

theorem ofResult {r : Result α} (hr : r.Shows) : Closes C (ofResult r) := by
  refine ⟨fun s e he => ?_, fun s => by rw [Reads.ofResult r s]⟩
  cases r with
  | error e' =>
    cases he
    rwa [hr e rfl]
  | ok x => cases he

theorem query {g : Store → Result α} (hg : ∀ s, (g s).Shows) : Closes C (query g) := by
  refine ⟨fun s e he => ?_, fun s => by rw [query_run]⟩
  rw [query_run] at he
  rwa [hg _ e he]

theorem view (h : Handle) : Closes C (view h) := query hC fun s => s.view_shows h

theorem views (hs : List Handle) : Closes C (views hs) := query hC fun s => s.views_shows hs

theorem deliver (target : Option String) (o : Handle) : Closes C (deliver target o) :=
  (view hC o).bind fun v => (storeAs target o).bind fun _ => .pure v

theorem listed (isUnordered : Bool) (hs : List Handle) : Closes C (listed isUnordered hs) :=
  (views hC hs).map _

theorem showElements (t : ElementType) (xs : List t.Value) : Closes C (showElements t xs) :=
  (Closes.mapM fun _ => .obtain _).bind fun os => views hC os

/-- What has been taken out of a collection is shown in the end. -/
theorem removes (t : ElementType) (x : t.Value) (id : Nat) (c : Contents) (target : Option String)
    (g : View → β) : Closes C (do
      let o ← toObject t x
      Action.replace id c
      return g (← Action.deliver target o)) :=
  (Closes.obtain _).bind fun o => (Closes.replace id c).bind fun _ => (deliver hC target o).map g

end Closes

namespace Cautious

theorem of_builds (ha : Ensures Builds a s P) : Cautious C a s :=
  ⟨fun _ _ _ => ha.follows, ha.follows.activators⟩

theorem of_run {b : Action α} (ha : Cautious C a s) (h : b s = a s) : Cautious C b s :=
  ⟨by rw [h]; exact ha.builds, by rw [h]; exact ha.activators⟩

theorem reads (ha : Reads a) : Cautious C a s := by
  refine ⟨fun _ _ _ => ?_, ?_⟩ <;> rw [ha s]
  exact .refl s

theorem pure (x : α) : Cautious C (pure x) s := reads (.pure x)

theorem throw (e : Fault) : Cautious C (throw e : Action α) s := reads (.throw e)

/-- What has been built before does not matter. -/
theorem bind (ha : Ensures Builds a s P)
    (hf : ∀ x t, t.Sound → s.Builds t → P x t → Cautious C (f x) t) : Cautious C (a >>= f) s := by
  rcases ha.error_or_ok with ⟨e, t, hrun, -, hb⟩ | ⟨x, t, hrun, ht, hb, hx⟩
  · refine ⟨fun _ _ _ => ?_, ?_⟩ <;> rw [bind_error hrun f]
    · exact hb
    · exact hb.activators
  · have h := hf x t ht hb hx
    refine ⟨?_, ?_⟩ <;> rw [bind_ok hrun f]
    · exact fun e he hc => hb.trans (h.builds e he hc)
    · exact h.activators.trans hb.activators

theorem bind_reads (ha : Reads a) (hf : ∀ x, (a s).1 = .ok x → Cautious C (f x) s) :
    Cautious C (a >>= f) s := by
  have h := ha s
  cases hrun : a s with
  | mk r t =>
    rw [hrun] at h hf
    change t = s at h
    subst h
    cases r with
    | error e => exact (throw e).of_run (bind_error hrun f)
    | ok x => exact (hf x rfl).of_run (bind_ok hrun f)

theorem ask {g : Session → α} (h : Cautious C (f (g s)) s) : Cautious C (ask g >>= f) s :=
  h.of_run rfl

theorem get {g : Session → Action α} (h : Cautious C (g s) s) : Cautious C (get >>= g) s :=
  h.of_run rfl

theorem query {g : Store → Result α} (hf : ∀ x, g s.store = .ok x → Cautious C (f x) s) :
    Cautious C (query g >>= f) s := by
  apply bind_reads (.query g)
  intro x hx
  rw [query_run] at hx
  exact hf x hx

/-- A descriptor may be built that the error names. -/
theorem convert {k : Option Kind} {g : Store → Result α} (hs : s.Sound)
    (hf : ∀ x, g s.store = .ok x → Cautious C (f x) s) : Cautious C (convert k g >>= f) s :=
  bind (convert_ensures hs k g) fun x _ _ _ hx => hx.2 ▸ hf x hx.1

theorem ofResult {r : Result α} (hf : ∀ x, r = .ok x → Cautious C (f x) s) :
    Cautious C (ofResult r >>= f) s := by
  apply bind_reads (.ofResult r)
  intro x hx
  cases r with
  | error e => cases hx
  | ok y =>
    cases hx
    exact hf x rfl

theorem ofObject {r : Except ObjectError α} (hf : ∀ x, r = .ok x → Cautious C (f x) s) :
    Cautious C (ofObject r >>= f) s := by
  apply ofResult
  intro x hx
  cases r with
  | error e => cases hx
  | ok y =>
    cases hx
    exact hf x rfl

theorem demandId {id : Option Nat} {f : Nat → Action β}
    (hf : ∀ i, id = some i → Cautious C (f i) s) : Cautious C (demandId id >>= f) s := by
  cases id with
  | none => exact throw _
  | some i => exact hf i rfl

/-- A change of the state after which nothing fails but what may. -/
theorem sets {t : Session} {f : PUnit → Action β} (ht : t.activators = s.activators)
    (hf : Closes C (f ⟨⟩)) : Cautious C (set t >>= f) s := by
  have hrun : (set t >>= f : Action β) s = f ⟨⟩ t := bind_ok (a := set t) rfl f
  refine ⟨fun e he hc => ?_, ?_⟩
  · rw [hrun] at he
    exact absurd hc (hf.spares t e he)
  · rw [hrun]
    exact (hf.activators t).trans ht

theorem replaces (id : Nat) (c : Contents) (x : β) :
    Cautious C (do replace id c; return x) s :=
  (Closes.change_return (fun s => s.mapRealm (·.replace id c)) (fun _ => rfl) x).cautious

/-- An object is shown before a name gets it. -/
theorem delivers (o : Handle) (target : Option String) (g : View → β) :
    Cautious C (do return g (← deliver target o)) s := by
  have hrun := map_deliver_run o target g s
  have hdeliver := deliver_run o target s
  refine ⟨fun e he _ => ?_, ?_⟩
  · rw [hrun] at he ⊢
    rw [hdeliver]
    cases hv : s.store.view o with
    | error e => exact .refl s
    | ok v =>
      rw [hv] at he
      cases he
  · rw [hrun, hdeliver]
    cases s.store.view o <;> cases target <;> rfl

theorem deliversElement (hs : s.Sound) (t : ElementType) {v : t.Value}
    (hv : s.store.SafeAll (t.owned v)) (target : Option String) (g : View → β) :
    Cautious C (do return g (← deliver target (← toObject t v))) s :=
  bind (toObject_ensures hs t v hv) fun o _ _ _ _ => delivers o target g

end Cautious

end Action

end CountedObjects
