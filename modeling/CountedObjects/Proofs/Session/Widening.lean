import CountedObjects.Proofs.Session.Registrations
import CountedObjects.Proofs.Store.Observation

/-! The place of the constructor that an activator selects, among those of the type. Where more
arguments are accepted it moves forward, and what is registered later does not move it. -/
namespace CountedObjects

open Relation (ReflTransGen)

/-- Null stands in for any argument, and an object for one whose descriptor is its own or one that
it derives from. -/
def Store.Replaces (s : Store) (h h' : Handle) : Prop :=
  h' = h ∨ h' = .null ∨ ∃ d e, s.reportedType h = .ok (some d) ∧ s.reportedType h' = .ok (some e) ∧
    ReflTransGen Descriptor.HasBase e d

variable {s s' : Store} {hs hs' : List Handle} {derived derived' : Bool}

theorem Descriptor.isAssignableFrom_eq_true_iff {d e : Descriptor} :
    e.isAssignableFrom d = .ok true ↔ ∃ x ∈ d :: d.ancestors, x.id = e.id := by
  unfold isAssignableFrom
  split
  · next he => exact iff_of_true rfl ⟨d, List.mem_cons_self, he.symm⟩
  · next he =>
    rw [isSubclassOf_eq]
    simp only [List.mem_cons, exists_eq_or_imp, Ne.symm he, false_or, ← List.mem_map]
    by_cases hmem : e.id ∈ d.ancestors.map Descriptor.id
    · rw [if_pos hmem]
      exact iff_of_true rfl hmem
    · rw [if_neg hmem]
      refine iff_of_false (fun hok => ?_) hmem
      split at hok <;> cases hok

/-- A descriptor can stand in wherever one can that it derives from. -/
theorem Descriptor.isAssignableFrom_of_reaches {d e x : Descriptor}
    (h : ReflTransGen HasBase e d) (hd : x.isAssignableFrom d = .ok true) :
    x.isAssignableFrom e = .ok true := by
  rw [isAssignableFrom_eq_true_iff] at hd ⊢
  obtain ⟨y, hy, hid⟩ := hd
  exact ⟨y, mem_cons_ancestors_iff.mpr (h.trans (mem_cons_ancestors_iff.mp hy)), hid⟩

namespace Parameter

variable {p : Parameter} {h h' : Handle}

theorem accepts_congr (heq : s'.reportedType h = s.reportedType h) :
    p.accepts s' h derived = p.accepts s h derived := by
  rw [accepts, accepts, heq]

theorem Takes.of_derived (hp : p.Takes false s h) : p.Takes derived s h := by
  rcases hp with hnull | ⟨d, hd, heq | ⟨hfalse, -⟩⟩
  · exact .inl hnull
  · exact .inr ⟨d, hd, .inl heq⟩
  · cases hfalse

theorem accepts_of_replaces (hr : s.Replaces h h') (hp : p.accepts s h true = .ok true) :
    p.accepts s h' true = .ok true := by
  rcases hr with rfl | rfl | ⟨d, e, hd, he, hreach⟩
  · exact hp
  · rfl
  · cases hx : p.type with
    | none =>
      -- An object with a descriptor is compared with that of the parameter, which is missing.
      have hnull : h.isNull = false := by
        cases h with
        | null => cases hd
        | type | object => rfl
      simp [accepts, hnull, hd, hx, TypeHandle.demand, bind, Except.bind] at hp
    | some x =>
      rw [accepts_eq hd hx] at hp
      rw [accepts_eq he hx]
      have hassign : x.isAssignableFrom d = .ok true := by
        split at hp
        · next hdx =>
          subst hdx
          exact Descriptor.isAssignableFrom_eq_true_iff.mpr ⟨d, List.mem_cons_self, rfl⟩
        · exact hp
      split
      · rfl
      · exact Descriptor.isAssignableFrom_of_reaches hreach hassign

end Parameter

namespace Constructor

variable {β : Type} {c : Constructor β}

theorem acceptsAll_congr (h : ∀ x ∈ hs, s'.reportedType x = s.reportedType x)
    (ps : List Parameter) : acceptsAll s' derived ps hs = acceptsAll s derived ps hs := by
  induction ps generalizing hs with
  | nil => rfl
  | cons p ps ih =>
    cases hs with
    | nil => rfl
    | cons x hs =>
      obtain ⟨hx, hhs⟩ := List.forall_mem_cons.mp h
      rw [acceptsAll, acceptsAll, Parameter.accepts_congr hx, ih hhs]

/-- Of the arguments only their descriptors matter. -/
theorem admits_congr (h : ∀ x ∈ hs, s'.reportedType x = s.reportedType x) :
    c.admits s' hs derived = c.admits s hs derived := by
  rw [admits, admits, acceptsAll_congr h]

theorem Fits.of_derived (h : c.Fits false s hs) : c.Fits derived s hs :=
  List.Forall₂.imp (fun _ _ => Parameter.Takes.of_derived) h

theorem acceptsAll_cons {p : Parameter} {x : Handle} {ps : List Parameter} :
    acceptsAll s derived (p :: ps) (x :: hs) = .ok true ↔
      p.accepts s x derived = .ok true ∧ acceptsAll s derived ps hs = .ok true := by
  rw [acceptsAll]
  cases hp : p.accepts s x derived with
  | error e => simp [bind, Except.bind]
  | ok b => cases b <;> simp [bind, Except.bind, pure, Except.pure]

theorem acceptsAll_of_replaces (hr : List.Forall₂ s.Replaces hs hs') (ps : List Parameter)
    (h : acceptsAll s true ps hs = .ok true) : acceptsAll s true ps hs' = .ok true := by
  induction hr generalizing ps with
  | nil => exact h
  | cons hx _ ih =>
    cases ps with
    | nil => rfl
    | cons p ps =>
      obtain ⟨hp, hps⟩ := acceptsAll_cons.mp h
      exact acceptsAll_cons.mpr ⟨Parameter.accepts_of_replaces hx hp, ih ps hps⟩

/-- Where derived arguments match, arguments may be replaced by null and by derived ones. -/
theorem admits_of_replaces (hr : List.Forall₂ s.Replaces hs hs')
    (h : c.admits s hs true = .ok true) : c.admits s hs' true = .ok true := by
  unfold admits at h ⊢
  rw [← List.Forall₂.length_eq hr]
  split at h
  · next hlen =>
    rw [if_pos hlen]
    exact acceptsAll_of_replaces hr _ h
  · cases h

end Constructor

namespace Activator

variable {β : Type} {a b : Activator β} {cs : List (Constructor β)} {c c' : Constructor β}
  {t : TypeHandle} {i j : Nat}

/-- The constructor at a place admits the arguments, and those in front of it do not. -/
structure ChoosesAt (s : Store) (hs : List Handle) (derived : Bool)
    (cs : List (Constructor β)) (i : Nat) (c : Constructor β) : Prop where
  getElem? : cs[i]? = some c
  admits : c.admits s hs derived = .ok true
  before : ∀ b ∈ cs.take i, b.admits s hs derived = .ok false

/-- The place, among the constructors of a type, of the one an instance is created with. -/
def SelectsAt (a : Activator β) (s : Store) (hs : List Handle) (t : TypeHandle) (i : Nat)
    (c : Constructor β) : Prop :=
  ∃ d, t = some d ∧ d.isAbstract = false ∧
    ChoosesAt s hs a.options.derived (a.constructorsOf d) i c

theorem choosesAt_zero {b : Constructor β} :
    ChoosesAt s hs derived (b :: cs) 0 c ↔ b = c ∧ b.admits s hs derived = .ok true := by
  constructor
  · rintro ⟨hget, hadmits, -⟩
    obtain rfl := Option.some.inj hget
    exact ⟨rfl, hadmits⟩
  · rintro ⟨rfl, hadmits⟩
    exact ⟨rfl, hadmits, fun _ hmem => absurd hmem List.not_mem_nil⟩

theorem choosesAt_succ {b : Constructor β} :
    ChoosesAt s hs derived (b :: cs) (i + 1) c ↔
      b.admits s hs derived = .ok false ∧ ChoosesAt s hs derived cs i c := by
  constructor
  · rintro ⟨hget, hadmits, hbefore⟩
    rw [List.take_succ_cons, List.forall_mem_cons] at hbefore
    exact ⟨hbefore.1, hget, hadmits, hbefore.2⟩
  · rintro ⟨hb, hget, hadmits, hbefore⟩
    refine ⟨hget, hadmits, ?_⟩
    rw [List.take_succ_cons, List.forall_mem_cons]
    exact ⟨hb, hbefore⟩

theorem choose_eq_some_iff :
    choose s hs derived cs = .ok (some c) ↔ ∃ i, ChoosesAt s hs derived cs i c := by
  induction cs with
  | nil =>
    refine iff_of_false (fun hok => by cases hok) ?_
    rintro ⟨i, hget, -, -⟩
    cases hget
  | cons b cs ih =>
    have hcases : (∃ i, ChoosesAt s hs derived (b :: cs) i c) ↔
        (b = c ∧ b.admits s hs derived = .ok true) ∨
          b.admits s hs derived = .ok false ∧ ∃ i, ChoosesAt s hs derived cs i c := by
      rw [← Nat.or_exists_add_one, choosesAt_zero]
      simp only [choosesAt_succ, exists_and_left]
    rw [hcases, ← ih]
    cases hb : b.admits s hs derived with
    | error e => simp [choose, hb, bind, Except.bind]
    | ok v => cases v <;> simp [choose_cons hb]

theorem ChoosesAt.place_unique (h : ChoosesAt s hs derived cs i c)
    (h' : ChoosesAt s hs derived cs j c') : i = j := by
  have hle : ∀ {i j c c'}, ChoosesAt s hs derived cs i c → ChoosesAt s hs derived cs j c' →
      i ≤ j := by
    intro i j c c' h h'
    by_contra hlt
    have hmem : c' ∈ cs.take i := by
      apply List.mem_of_getElem? (i := j)
      rw [List.getElem?_take_of_lt (Nat.lt_of_not_le hlt), h'.getElem?]
    cases (h.before c' hmem).symm.trans h'.admits
  exact Nat.le_antisymm (hle h h') (hle h' h)

/-- If the constructor that was chosen is still admitted, one at its place or before it is chosen,
provided that each question is answered. -/
theorem ChoosesAt.exists_le (h : ChoosesAt s hs derived cs i c)
    (hok : ∀ b ∈ cs, ∃ v, b.admits s' hs' derived' = .ok v)
    (hc : c.admits s' hs' derived' = .ok true) :
    ∃ j ≤ i, ∃ c', ChoosesAt s' hs' derived' cs j c' := by
  induction cs generalizing i with
  | nil => cases h.getElem?
  | cons b cs ih =>
    obtain ⟨⟨v, hv⟩, hok⟩ := List.forall_mem_cons.mp hok
    cases v with
    | true => exact ⟨0, Nat.zero_le i, b, choosesAt_zero.mpr ⟨rfl, hv⟩⟩
    | false =>
      cases i with
      | zero =>
        obtain ⟨rfl, -⟩ := choosesAt_zero.mp h
        cases hv.symm.trans hc
      | succ i =>
        obtain ⟨j, hj, c', hc'⟩ := ih (choosesAt_succ.mp h).2 hok
        exact ⟨j + 1, Nat.succ_le_succ hj, c', choosesAt_succ.mpr ⟨hv, hc'⟩⟩

theorem ChoosesAt.append (h : ChoosesAt s hs derived cs i c) (more : List (Constructor β)) :
    ChoosesAt s hs derived (cs ++ more) i c := by
  have hlt : i < cs.length := (List.getElem?_eq_some_iff.mp h.getElem?).1
  refine ⟨?_, h.admits, ?_⟩
  · rw [List.getElem?_append_left hlt, h.getElem?]
  · rw [List.take_append_of_le_length (Nat.le_of_lt hlt)]
    exact h.before

theorem ChoosesAt.congr (h : ChoosesAt s hs derived cs i c)
    (heq : ∀ x ∈ hs, s'.reportedType x = s.reportedType x) :
    ChoosesAt s' hs derived cs i c where
  getElem? := h.getElem?
  admits := (Constructor.admits_congr heq).trans h.admits
  before b hb := (Constructor.admits_congr heq).trans (h.before b hb)

theorem select_eq_ok_iff : a.select s t hs = .ok c ↔ ∃ i, a.SelectsAt s hs t i c := by
  cases t with
  | none =>
    refine iff_of_false (fun hok => by cases hok) ?_
    rintro ⟨_, _, hnone, -⟩
    cases hnone
  | some d =>
    have hselects : (∃ i, a.SelectsAt s hs (some d) i c) ↔
        d.isAbstract = false ∧
          choose s hs a.options.derived (a.constructorsOf d) = .ok (some c) := by
      simp [SelectsAt, choose_eq_some_iff]
    rw [hselects]
    cases hd : d.isAbstract with
    | true => simp [select, Result.ofObject, TypeHandle.get, bind, Except.bind, hd, throw, throwThe,
        MonadExceptOf.throw]
    | false =>
      by_cases hne : a.constructorsOf d = []
      · simp [select, Result.ofObject, TypeHandle.get, bind, Except.bind, hd, hne, choose, throw,
          throwThe, MonadExceptOf.throw, pure, Except.pure]
      · cases hfound : choose s hs a.options.derived (a.constructorsOf d) with
        | error e =>
          have hempty : (a.constructorsOf d).isEmpty = false := List.isEmpty_eq_false_iff.mpr hne
          simp [select, Result.ofObject, TypeHandle.get, bind, Except.bind, hd, hempty, hfound]
        | ok found =>
          rw [select_of_not_isAbstract hd hne hfound]
          cases found <;> simp

variable {η θ : History β}

theorem Records.admits_ok (h : a.Records η) (hη : η.IsTyped) (hh : ∀ x ∈ hs, s.Describes x)
    (derived : Bool) (d : Descriptor) :
    ∀ b ∈ a.constructorsOf d, ∃ v, b.admits s hs derived = .ok v := by
  intro b hb
  rw [h.constructorsOf_eq] at hb
  obtain ⟨v, hv, -⟩ := Constructor.admits_tells (hη b (List.mem_filter.mp hb).1) hh
  exact ⟨v, hv⟩

/-- With derived arguments matching, the place of the constructor is the same or an earlier one. -/
theorem Records.selectsAt_of_derived (h : a.Records η) (h' : b.Records θ)
    (hregs : θ.registrations = η.registrations) (ha : η.options.derived = false) (hη : η.IsTyped)
    (hh : ∀ x ∈ hs, s.Describes x) (hsel : a.SelectsAt s hs t i c) :
    ∃ j ≤ i, ∃ c', b.SelectsAt s hs t j c' := by
  obtain ⟨d, rfl, habs, hat⟩ := hsel
  have hcs : b.constructorsOf d = a.constructorsOf d := by
    rw [h.constructorsOf_eq, h'.constructorsOf_eq, History.constructorsOf, History.constructors,
      hregs]
    rfl
  have hmem : c ∈ η.constructorsOf d := h.constructorsOf_eq d ▸ List.mem_of_getElem? hat.getElem?
  have htells : ∀ derived, Result.Tells (c.admits s hs derived) (c.Fits derived s hs) :=
    fun _ => Constructor.admits_tells (hη c (List.mem_filter.mp hmem).1) hh
  have hfits : c.Fits false s hs := by
    have hadmits := hat.admits
    rw [h.options, ha] at hadmits
    exact (htells false).eq_true_iff.mp hadmits
  obtain ⟨j, hj, c', hc'⟩ := hat.exists_le (h.admits_ok hη hh b.options.derived d)
    ((htells _).eq_true_iff.mpr hfits.of_derived)
  refine ⟨j, hj, c', d, rfl, habs, ?_⟩
  rw [hcs]
  exact hc'

theorem Records.selectsAt_add (h : a.Records η) {rs : List (Registration β)}
    (h' : b.Records (η.add rs)) (heq : ∀ x ∈ hs, s'.reportedType x = s.reportedType x)
    (hsel : a.SelectsAt s hs t i c) : b.SelectsAt s' hs t i c := by
  obtain ⟨d, rfl, habs, hat⟩ := hsel
  have hoptions : b.options = a.options := h'.options.trans h.options.symm
  have hcs : b.constructorsOf d = a.constructorsOf d ++
      (rs.filterMap Registration.constructor?).filter fun c => c.declaring.id == d.id := by
    rw [h.constructorsOf_eq, h'.constructorsOf_eq, History.constructorsOf, History.constructors,
      History.add, List.filterMap_append, List.filter_append]
    rfl
  refine ⟨d, rfl, habs, ?_⟩
  rw [hoptions, hcs]
  exact (hat.congr heq).append _

theorem Records.selectsAt_of_replaces (h : a.Records η) (hη : η.IsTyped)
    (ha : η.options.derived = true) (hr : List.Forall₂ s.Replaces hs hs')
    (hh : ∀ x ∈ hs', s.Describes x) (hsel : a.SelectsAt s hs t i c) :
    ∃ j ≤ i, ∃ c', a.SelectsAt s hs' t j c' := by
  obtain ⟨d, rfl, habs, hat⟩ := hsel
  have hderived : a.options.derived = true := h.options ▸ ha
  rw [hderived] at hat
  obtain ⟨j, hj, c', hc'⟩ := hat.exists_le (h.admits_ok hη hh true d)
    (Constructor.admits_of_replaces hr hat.admits)
  refine ⟨j, hj, c', d, rfl, habs, ?_⟩
  rw [hderived]
  exact hc'

end Activator

namespace Session

/-- How the place of the constructor that an activator selects depends on the option for derived
arguments, on what is registered later and on the arguments. -/
structure SelectsFirst (s : Session) (a : String) (η : History Construction) : Prop where
  select_iff : ∀ (r : Store) hs t c,
    (s.activator a).select r t hs = .ok c ↔ ∃ i, (s.activator a).SelectsAt r hs t i c
  place_unique : ∀ (r : Store) hs t i c j c', (s.activator a).SelectsAt r hs t i c →
    (s.activator a).SelectsAt r hs t j c' → i = j ∧ c = c'
  derived : η.options.derived = false → η.IsTyped → ∀ (steps : List Step) (b : String),
    let θ := history b start .unmade steps
    θ.options.derived = true → θ.registrations = η.registrations →
      ∀ (r : Store) hs t i c, (∀ h ∈ hs, r.Describes h) →
        (s.activator a).SelectsAt r hs t i c →
          ∃ j ≤ i, ∃ c', ((start.advanceAll steps).2.activator b).SelectsAt r hs t j c'
  registered_later : ∀ later : List Step, (∀ step ∈ later, step.creates a = false) →
    ∀ (r r' : Store) hs t i c, (∀ h ∈ hs, r'.reportedType h = r.reportedType h) →
      (s.activator a).SelectsAt r hs t i c →
        ((s.advanceAll later).2.activator a).SelectsAt r' hs t i c
  later_type : ∀ (later : List Step) h, s.store.Safe h → (s.advanceAll later).2.store.Safe h →
    (s.advanceAll later).2.store.reportedType h = s.store.reportedType h
  replaced : ∀ (r : Store) (c : Constructor Construction) hs hs', List.Forall₂ r.Replaces hs hs' →
    c.admits r hs true = .ok true → c.admits r hs' true = .ok true
  replaced_place : η.options.derived = true → η.IsTyped →
    ∀ (r : Store) hs hs' t i c, List.Forall₂ r.Replaces hs hs' → (∀ h ∈ hs', r.Describes h) →
      (s.activator a).SelectsAt r hs t i c →
        ∃ j ≤ i, ∃ c', (s.activator a).SelectsAt r hs' t j c'

/-- After any steps, an activator selects the constructor at one place among those of the type. No
later registration moves it. It moves at most forward where derived arguments match that did not,
and where arguments are replaced by null or by derived ones. -/
theorem run_selects_first (steps : List Step) (a : String) :
    (start.advanceAll steps).2.SelectsFirst a (history a start .unmade steps) where
  select_iff _ _ _ _ := Activator.select_eq_ok_iff
  place_unique := by
    rintro r hs t i c j c' ⟨d, rfl, -, hi⟩ ⟨d', hd', -, hj⟩
    cases hd'
    obtain rfl := hi.place_unique hj
    exact ⟨rfl, Option.some.inj (hi.getElem?.symm.trans hj.getElem?)⟩
  derived := by
    intro ha hη steps' b θ _ hregs r hs t i c hh hsel
    have hregistered := run_registered steps' b
    exact (run_registered steps a).selectsAt_of_derived hregistered hregs ha hη hh hsel
  registered_later := by
    intro later hlater r r' hs t i c heq hsel
    have hrun := (run_settled steps).registered_advanceAll (run_registered steps a) later
    rw [history_eq_add later hlater] at hrun
    exact (run_registered steps a).selectsAt_add hrun heq hsel
  later_type later _ hh hh' :=
    (precedes_advanceAll (run_settled steps) later).reportedType_eq hh hh'
  replaced _ _ _ _ hr h := Constructor.admits_of_replaces hr h
  replaced_place := by
    intro ha hη r hs hs' t i c hr hh hsel
    exact (run_registered steps a).selectsAt_of_replaces hη ha hr hh hsel

/-- Two activators with the same constructors of dogs, one that takes an animal and one that takes
a dog. Derived arguments match in the second activator only. -/
def overloads : List Step :=
  [.handle (.new "d" .dog),
    .activator (.new "a" ⟨false, false⟩), .activator (.new "b" ⟨false, true⟩),
    .activator (.registerConstructor "a" "Dog" [("x", "Animal")] .refuse),
    .activator (.registerConstructor "b" "Dog" [("x", "Animal")] .refuse),
    .activator (.registerConstructor "a" "Dog" [("x", "Dog")] (.argument 0)),
    .activator (.registerConstructor "b" "Dog" [("x", "Dog")] (.argument 0))]

/-- The descriptor of dogs in a session that begins with a dog. -/
def firstDog : Descriptor :=
  .derived 20 (.kind .dog) Kind.dog.draft (.derived 19 (.kind .animal) Kind.animal.draft
    (.root 0 .object ⟨"System", "Object", true, none⟩))

theorem overloads_constructorsOf :
    ((start.advanceAll overloads).2.activator "a").constructorsOf firstDog =
      [⟨firstDog, [⟨"x", firstDog.base?.join⟩], .refuse⟩,
        ⟨firstDog, [⟨"x", some firstDog⟩], .argument 0⟩] := by decide +kernel

theorem overloads_reportedType :
    (start.advanceAll overloads).2.store.reportedType (.object 0) = .ok (some firstDog) := by
  decide +kernel

theorem overloads_selectsAt :
    ((start.advanceAll overloads).2.activator "a").SelectsAt
      (start.advanceAll overloads).2.store [.object 0] ((start.advanceAll overloads).2.type "Dog") 1
      ⟨firstDog, [⟨"x", some firstDog⟩], .argument 0⟩ := by
  have ht : (start.advanceAll overloads).2.type "Dog" = some firstDog := by decide +kernel
  refine ⟨firstDog, ht, rfl, ?_⟩
  rw [overloads_constructorsOf, Activator.choosesAt_succ, Activator.choosesAt_zero]
  refine ⟨?_, rfl, ?_⟩
  · decide +kernel
  · decide +kernel

/-- A dog as the argument fits the first constructor only where derived arguments match. -/
theorem run_selects_first_dog :
    ∃ later c,
      let s := (start.advanceAll overloads).2
      let η := history "a" start .unmade overloads
      let θ := history "b" start .unmade overloads
      let t := s.type "Dog"
      η.options.derived = false ∧ η.IsTyped ∧ θ.options.derived = true ∧
      θ.registrations = η.registrations ∧ s.store.Describes (.object 0) ∧
      (∀ step ∈ later, step.creates "a" = false) ∧
      (s.activator "a").SelectsAt s.store [.object 0] t 1 c ∧
      (∃ j ≤ 1, ∃ c', (s.activator "b").SelectsAt s.store [.object 0] t j c') ∧
      ((s.advanceAll later).2.activator "a").SelectsAt s.store [.object 0] t 1 c ∧
      c.admits s.store [.null] true = .ok true := by
  have ha : (history "a" start .unmade overloads).options.derived = false := by decide +kernel
  have hb : (history "b" start .unmade overloads).options.derived = true := by decide +kernel
  have hη : (history "a" start .unmade overloads).IsTyped := by
    unfold History.IsTyped
    decide +kernel
  have hregs : (history "b" start .unmade overloads).registrations =
      (history "a" start .unmade overloads).registrations := by decide +kernel
  have hdog : (start.advanceAll overloads).2.store.Describes (.object 0) :=
    .inr ⟨firstDog, overloads_reportedType, trivial⟩
  have hlater : ∀ step ∈ [Step.activator (.registerConstructor "a" "Dog" [("y", "Dog")] .refuse)],
      step.creates "a" = false := by simp [Step.creates]
  have h := run_selects_first overloads "a"
  exact ⟨_, _, ha, hη, hb, hregs, hdog, hlater, overloads_selectsAt,
    h.derived ha hη overloads "b" hb hregs _ _ _ _ _ (List.forall_mem_singleton.mpr hdog)
      overloads_selectsAt,
    h.registered_later _ hlater _ _ _ _ _ _ (fun _ _ => rfl) overloads_selectsAt,
    h.replaced _ _ [.object 0] [.null] (.cons (.inr (.inl rfl)) .nil) (by decide +kernel)⟩

end Session

end CountedObjects
