import CountedObjects.Proofs.Flags
import CountedObjects.Proofs.Session.CautiousSteps

/-! In a session whose steps name no enumeration that is a type of objects too, every enum value has
a descriptor that is flagged as one of an enumeration. -/
namespace CountedObjects

/-! The enumerations that steps name. -/

mutual

def Literal.enumerations : Literal → List Enumeration
  | .member e _ => [e]
  | .assembled _ _ ls => enumerationsAll ls
  | .pair k v => k.enumerations ++ v.enumerations
  | .nested _ v | .present _ v => v.enumerations
  | _ => []

def Literal.enumerationsAll : List Literal → List Enumeration
  | [] => []
  | l :: ls => l.enumerations ++ enumerationsAll ls

end

def Source.written : Source → List Literal
  | literals ls => ls
  | collection _ => []

/-- The objects that are written in a step. -/
def Step.written : Step → List Literal
  | .handle (.new _ v) => [v]
  | .handle (.snapshot _ vs) => vs
  | .activator (.admits _ _ _ vs _) | .activator (.invoke _ _ _ vs) => vs
  | .activator (.create _ _ vs _) | .activator (.createByName _ _ vs _) => vs
  | .list (.new _ _ vs) => vs
  | .list (.add _ v) | .list (.addObject _ v) | .list (.set _ _ v) | .list (.insert _ _ v) => [v]
  | .list (.remove _ v) | .list (.contains _ v) | .list (.indexOf _ v) => [v]
  | .list (.addRange _ source) => source.written
  | .queue (.enqueue _ v) => [v]
  | .set (.add _ v) | .set (.contains _ v) | .set (.remove _ v) => [v]
  | .set (.union _ source) | .set (.intersect _ source) => source.written
  | .dictionary (.add _ k v) | .dictionary (.set _ k v) => [k, v]
  | .dictionary (.get _ k _) | .dictionary (.tryGet _ k) => [k]
  | .dictionary (.containsKey _ k) | .dictionary (.remove _ k) => [k]
  | .dictionary (.containsValue _ v) => [v]
  | _ => []

def Step.enumerations (step : Step) : List Enumeration :=
  match step with
  | .enumeration (.unbox _ e) | .enumeration (.member _ e) | .enumeration (.ofOrdinal e _) => [e]
  | .activator (.registerEnum _ e) => [e]
  | step => Literal.enumerationsAll step.written

namespace Action

variable {α β : Type} {a : Action α} {f : α → Action β} {e : Enumeration}

/-- Whatever an action answers, it keeps all descriptors flagged. -/
def Flags (a : Action α) : Prop := ∀ s : Session, s.realm.Flagged → (a s).2.realm.Flagged

namespace Flags

theorem reads (ha : Reads a) : Flags a := fun s hs => by rwa [ha s]

theorem pure (x : α) : Flags (pure x) := reads (.pure x)

theorem throw (x : Fault) : Flags (throw x : Action α) := reads (.throw x)

theorem ask (g : Session → α) : Flags (ask g) := reads (.ask g)

theorem query (g : Store → Result α) : Flags (query g) := reads (.query g)

theorem convert (k : Option Kind) (g : Store → Result α) : Flags (convert k g) := fun s hs => by
  rw [convert_run]
  exact Realm.flagged_converting hs k _

theorem bind (ha : Flags a) (hf : ∀ x, Flags (f x)) : Flags (a >>= f) := by
  intro s hs
  have hfirst := ha s hs
  cases hrun : a s with
  | mk r t =>
    rw [hrun] at hfirst
    cases r with
    | error e =>
      rw [bind_error hrun f]
      exact hfirst
    | ok x =>
      rw [bind_ok hrun f]
      exact hf x t hfirst

theorem map (ha : Flags a) (g : α → β) : Flags (do return g (← a)) := ha.bind fun _ => .pure _

theorem ofResult {r : Result α} (hf : ∀ x, r = .ok x → Flags (f x)) :
    Flags (ofResult r >>= f) := by
  cases r with
  | error e => exact .throw e
  | ok x => exact hf x rfl

theorem ofObject {r : Except ObjectError α} (hf : ∀ x, r = .ok x → Flags (f x)) :
    Flags (ofObject r >>= f) :=
  ofResult fun x hx => hf x (by cases r <;> cases hx; rfl)

/-- An action that begins by looking at the state is judged in that state. -/
theorem get {g : Session → Action α}
    (h : ∀ s : Session, s.realm.Flagged → (g s s).2.realm.Flagged) : Flags (get >>= g) := h

theorem change {g : Session → Session}
    (hg : ∀ s : Session, s.realm.Flagged → (g s).realm.Flagged) : Flags (change g) := hg

theorem obtain {g : Realm → Handle × Realm}
    (hg : ∀ r : Realm, r.Flagged → (g r).2.Flagged) : Flags (obtain g) := fun s hs => hg s.realm hs

theorem attempt {g : Realm → Result Handle × Realm}
    (hg : ∀ r : Realm, r.Flagged → (g r).2.Flagged) : Flags (attempt g) := by
  intro s hs
  rw [attempt_run]
  exact hg s.realm hs

theorem make {b : Body} (hb : b.IsFlagged) : Flags (make b) :=
  obtain fun _ hr => Realm.flagged_make hr hb

/-- An object that is no enum value. -/
theorem makeOther {b : Body} (hb : b.kind ≠ .enumValue) : Flags (Action.make b) :=
  make (Body.isFlagged_of_kind hb)

theorem share (h : Handle) : Flags (share h) := obtain fun _ hr => Realm.flagged_share hr h

theorem toObject (t : ElementType) (v : t.Value) : Flags (toObject t v) :=
  obtain fun _ hr => Realm.flagged_toObject hr t v

theorem replace (id : Nat) (c : Contents) : Flags (replace id c) :=
  change (g := fun s => s.mapRealm (·.replace id c)) fun _ hs => Realm.flagged_replace hs id c

theorem enumType (e : Enumeration) : Flags (enumType e) :=
  fun _ hs => hs.of_registry (Registry.flagged_enumType hs.registry e)

theorem enumerate (h : Handle) : Flags (enumerate h) := by
  intro s hs
  cases hc : s.store.contents? h with
  | none => rwa [enumerate_run_none hc]
  | some c =>
    rw [enumerate_run_some hc]
    exact Realm.flagged_enumerate hs c

/-- A new value of an enumeration that is no type of objects. -/
theorem boxMember (he : e.IsApart) (m : String × Int32) : Flags (boxMember e m) := by
  intro s hs
  refine Realm.flagged_make (hs.of_registry (Registry.flagged_enumType hs.registry e)) ?_
  rintro _ _ ⟨⟩
  exact Registry.isEnum_enumType hs.registry he

theorem mapM {xs : List α} (hf : ∀ x, Flags (f x)) : Flags (xs.mapM f) := by
  induction xs with
  | nil => exact .pure []
  | cons x xs ih =>
    rw [List.mapM_cons]
    exact (hf x).bind fun _ => ih.bind fun _ => .pure _

theorem mapOption {o : Option α} (hf : ∀ x, Flags (f x)) : Flags (o.mapM f) := by
  cases o with
  | none => exact .pure none
  | some x =>
    rw [Option.mapM_some, map_eq_pure_bind]
    exact (hf x).bind fun _ => .pure _

end Flags

end Action

namespace Session

variable {s : Session}

theorem flagged_setHandle (hs : s.realm.Flagged) (name : String) (h : Handle) :
    (s.setHandle name h).realm.Flagged :=
  Realm.flagged_releaseAll (Realm.flagged_share hs h) _

theorem flagged_clearHandle (hs : s.realm.Flagged) (name : String) :
    (s.clearHandle name).realm.Flagged := by
  unfold clearHandle
  split
  · exact flagged_setHandle hs name .null
  · exact hs

theorem flagged_takeNext? {name : String} {h : Handle} {t : Session} (hs : s.realm.Flagged)
    (ht : s.takeNext? name = some (h, t)) : t.realm.Flagged := by
  unfold takeNext? at ht
  cases hi : (s.enumerator name).items with
  | nil => simp [hi] at ht
  | cons x xs =>
    simp only [hi, Option.some.injEq, Prod.mk.injEq] at ht
    obtain ⟨-, rfl⟩ := ht
    exact hs

theorem flagged_takeRest? {name : String} {e : Enumerator} {t : Session} (hs : s.realm.Flagged)
    (ht : s.takeRest? name = some (e, t)) : t.realm.Flagged := by
  obtain ⟨_, -, hp⟩ := Option.map_eq_some_iff.mp ht
  cases hp
  exact hs

theorem flagged_openEnumerator? {name : String} {h : Handle} {t : Session} (hs : s.realm.Flagged)
    (ht : s.openEnumerator? name h = some t) : t.realm.Flagged := by
  obtain ⟨c, -, hp⟩ := Option.map_eq_some_iff.mp ht
  cases hp
  exact Realm.flagged_releaseAll (Realm.flagged_enumerate hs c) _

end Session

namespace Literal

open CountedObjects.Action

mutual

theorem build_flags : (l : Literal) → (∀ e ∈ l.enumerations, e.IsApart) → Flags l.build
  | .null, _ => .pure _
  | .scalar _, _ | .text _, _ | .plain, _ | .tracked _, _ | .animal, _ | .dog, _ =>
    .makeOther Kind.noConfusion
  | .handle _, _ | .type _, _ => (Flags.ask _).bind fun _ => .share _
  | .member e n, he => by
    unfold build
    split
    · exact .pure _
    · exact .boxMember (he e (by simp [enumerations])) _
  | .ordinal t n, _ => (Flags.ask _).bind fun _ => .ofObject fun _ hb =>
      .make (EnumValue.isFlagged_ofOrdinal hb)
  | .parsed t x, _ => (Flags.ask _).bind fun _ => .ofObject fun _ hb =>
      .make (EnumValue.isFlagged_parse hb)
  | .assembled t tag ls, he => by
    unfold build
    apply (buildAll_flags ls fun e hm => he e (by simpa [enumerations] using hm)).bind
    intro hs
    exact (Flags.ask _).bind fun _ => .makeOther Kind.noConfusion
  | .pair k v, he => by
    unfold build
    apply (build_flags k fun e hm => he e (by simp [enumerations, hm])).bind
    intro key
    apply (build_flags v fun e hm => he e (by simp [enumerations, hm])).bind
    intro value
    exact .makeOther Kind.noConfusion
  | .nested d v, he => by
    unfold build
    apply (build_flags v fun e hm => he e (by simpa [enumerations] using hm)).bind
    intro h
    exact nest_flags d h
  | .present t v, he => by
    unfold build
    apply (build_flags v fun e hm => he e (by simpa [enumerations] using hm)).bind
    intro h
    exact (Flags.convert _ _).bind fun _ => .toObject _ _
  | .missing t, _ => .toObject _ _

theorem buildAll_flags :
    (ls : List Literal) → (∀ e ∈ enumerationsAll ls, e.IsApart) → Flags (buildAll ls)
  | [], _ => .pure _
  | l :: ls, he => by
    unfold buildAll
    apply (build_flags l fun e hm => he e (by simp [enumerationsAll, hm])).bind
    intro h
    exact (buildAll_flags ls fun e hm => he e (by simp [enumerationsAll, hm])).map _

theorem nest_flags (d : Nat) (h : Handle) : Flags (nest d h) := by
  induction d generalizing h with
  | zero => exact .pure h
  | succ d ih => exact (Flags.makeOther Kind.noConfusion).bind fun _ => ih _

end

end Literal

namespace Literal

/-- Written objects that name no enumeration that is a type of objects. -/
def AllApart (ls : List Literal) : Prop := ∀ e ∈ enumerationsAll ls, e.IsApart

theorem mem_enumerationsAll {ls : List Literal} {l : Literal} (hl : l ∈ ls) {e : Enumeration}
    (he : e ∈ l.enumerations) : e ∈ enumerationsAll ls := by
  induction ls with
  | nil => cases hl
  | cons x xs ih =>
    rw [enumerationsAll, List.mem_append]
    rcases List.mem_cons.mp hl with rfl | hl
    · exact .inl he
    · exact .inr (ih hl)

end Literal

namespace Action

open Literal (AllApart)

variable {α β : Type} {f : α → Action β} {ls : List Literal} {l : Literal}

namespace Flags

theorem build (h : AllApart ls) (hl : l ∈ ls) : Flags l.build :=
  Literal.build_flags l fun e he => h e (Literal.mem_enumerationsAll hl he)

theorem buildAll (h : AllApart ls) : Flags (Literal.buildAll ls) := Literal.buildAll_flags ls h

theorem element (h : AllApart ls) (hl : l ∈ ls) (t : ElementType) : Flags (l.element t) :=
  (build h hl).bind fun _ => .convert _ _

theorem elements (h : AllApart ls) (t : ElementType) : Flags (Literal.elements t ls) :=
  (buildAll h).bind fun _ => .convert _ _

theorem elementsOf {source : Source} (h : AllApart source.written) (t : ElementType) :
    Flags (elementsOf t source) := by
  cases source with
  | literals ls => exact elements h t
  | collection name =>
    exact (Flags.ask _).bind fun _ => (Flags.enumerate _).bind fun _ => .convert _ _

theorem demandId (id : Option Nat) : Flags (demandId id) := by
  cases id with
  | none => exact .throw _
  | some id => exact .pure id

theorem setHandle (name : String) (h : Handle) : Flags (Action.change (·.setHandle name h)) :=
  change (g := (·.setHandle name h)) fun _ hs => Session.flagged_setHandle hs name h

theorem storeAs (name : Option String) (h : Handle) : Flags (storeAs name h) := by
  cases name with
  | none => exact .pure ()
  | some n => exact setHandle n h

theorem deliver (name : Option String) (h : Handle) : Flags (deliver name h) :=
  (Flags.query _).bind fun _ => (storeAs name h).map _

theorem delivers (target : Option String) (h : Handle) (g : View → Answer) :
    Flags (do return g (← Action.deliver target h)) :=
  (deliver target h).map g

theorem replaces (id : Nat) (c : Contents) (x : α) : Flags (do Action.replace id c; return x) :=
  (replace id c).bind fun _ => .pure x

theorem deliversElement (t : ElementType) (v : t.Value) (target : Option String)
    (g : View → Answer) : Flags (do return g (← Action.deliver target (← Action.toObject t v))) :=
  (toObject t v).bind fun o => delivers target o g

/-- An element leaves a collection. -/
theorem removes (t : ElementType) (v : t.Value) (id : Nat) (c : Contents)
    (target : Option String) (g : View → Answer) :
    Flags (do
      let o ← Action.toObject t v
      Action.replace id c
      return g (← Action.deliver target o)) :=
  (toObject t v).bind fun o => (replace id c).bind fun _ => delivers target o g

/-- A new collection gets a name. -/
theorem new (name : String) (c : Contents) (x : α) :
    Flags (do
      let o ← Action.make (.collection c)
      Action.change (·.setHandle name o)
      return x) := by
  have hc : (Body.collection c).kind ≠ .enumValue := by cases c <;> exact Kind.noConfusion
  exact (makeOther hc).bind fun o => (setHandle name o).map _

theorem showElements (t : ElementType) (xs : List t.Value) : Flags (showElements t xs) :=
  (mapM fun x => toObject t x).bind fun os => .reads (views_reads os)

theorem showOptional (o : Option Handle) : Flags (do return Answer.optional (← o.mapM view)) :=
  .reads (showOptional_reads o)

end Flags

end Action

end CountedObjects
