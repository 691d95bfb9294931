import Mathlib.Data.List.Forall2
import CountedObjects.Proofs.Assignability
import CountedObjects.Proofs.Registrations

/-! The constructor that an activator creates an instance with: the first that was registered for
the type and takes the arguments. -/
namespace CountedObjects

open Result (Tells)

variable {β : Type}

/-- Null is taken for any parameter, and an object whose descriptor is the parameter's. Where
derived arguments match, its type or one of its ancestors may have the identity of the parameter's
type instead. -/
def Parameter.Takes (p : Parameter) (derived : Bool) (s : Store) (h : Handle) : Prop :=
  h = .null ∨ ∃ d, s.reportedType h = .ok (some d) ∧
    (p.type = some d ∨
      derived = true ∧ ∃ x ∈ d :: d.ancestors, p.type.map Descriptor.id = some x.id)

/-- As many parameters as arguments, each of which takes its argument. -/
def Constructor.Fits (c : Constructor β) (derived : Bool) (s : Store) (hs : List Handle) : Prop :=
  List.Forall₂ (fun p h => p.Takes derived s h) c.parameters hs

/-- An argument that is null or has a descriptor with no null handle among its bases. -/
def Store.Describes (s : Store) (h : Handle) : Prop :=
  h = .null ∨ ∃ d, s.reportedType h = .ok (some d) ∧ d.IsRooted

/-- No null handle stands for the type of a registered parameter. -/
def History.IsTyped (η : History β) : Prop :=
  ∀ c ∈ η.constructors, ∀ p ∈ c.parameters, p.type ≠ none

variable {s : Store} {derived : Bool} {hs : List Handle}

namespace Parameter

variable {p : Parameter} {h : Handle} {d e : Descriptor}

theorem accepts_eq (hd : s.reportedType h = .ok (some d)) (he : p.type = some e) :
    p.accepts s h derived =
      if d = e then .ok true else if derived then e.isAssignableFrom d else .ok false := by
  have hisNull : h.isNull = false := by
    cases h with
    | null => cases hd
    | type d => rfl
    | object id => rfl
  have hsome : (some d = some e) = (d = e) := Option.some.injEq d e
  simp only [accepts, hisNull, hd, he, bind, Except.bind, hsome]
  cases derived <;> rfl

theorem takes_iff (hd : s.reportedType h = .ok (some d)) (he : p.type = some e) :
    p.Takes derived s h ↔ d = e ∨ derived = true ∧ ∃ x ∈ d :: d.ancestors, x.id = e.id := by
  have hsome : ∀ x : Descriptor, p.type = some x ↔ x = e := fun x => by
    rw [he, Option.some.injEq, eq_comm]
  have hid : ∀ x : Descriptor, p.type.map Descriptor.id = some x.id ↔ x.id = e.id := fun x => by
    rw [he, Option.map_some, Option.some.injEq, eq_comm]
  simp only [Takes, hsome, hid]
  constructor
  · rintro (rfl | ⟨d', hd', htype⟩)
    · cases hd
    · cases hd.symm.trans hd'
      exact htype
  · exact fun htype => .inr ⟨d, hd, htype⟩

theorem accepts_tells (derived : Bool) (hp : p.type ≠ none) (hh : s.Describes h) :
    Tells (p.accepts s h derived) (p.Takes derived s h) := by
  rcases hh with rfl | ⟨d, hd, hroot⟩
  · exact Result.tells_ok ⟨fun _ => .inl rfl, fun _ => rfl⟩
  · obtain ⟨e, he⟩ := Option.ne_none_iff_exists'.mp hp
    rw [accepts_eq hd he, takes_iff hd he]
    by_cases heq : d = e
    · rw [if_pos heq]
      exact Result.tells_ok ⟨fun _ => .inl heq, fun _ => rfl⟩
    · rw [if_neg heq]
      cases derived with
      | false =>
        refine Result.tells_ok ⟨fun hb => Bool.noConfusion hb, ?_⟩
        rintro (h | ⟨h, -⟩)
        · exact absurd h heq
        · cases h
      | true =>
        obtain ⟨b, hb, hiff⟩ := hroot.isAssignableFrom_tells e
        refine ⟨b, hb, hiff.trans ?_⟩
        simp only [heq, false_or, true_and]

end Parameter

namespace Constructor

theorem acceptsAll_tells {ps : List Parameter} (hp : ∀ p ∈ ps, p.type ≠ none)
    (hh : ∀ h ∈ hs, s.Describes h) (hlen : ps.length = hs.length) :
    Tells (acceptsAll s derived ps hs) (List.Forall₂ (fun p h => p.Takes derived s h) ps hs) := by
  induction ps generalizing hs with
  | nil =>
    obtain rfl := List.length_eq_zero_iff.mp hlen.symm
    exact Result.tells_ok ⟨fun _ => .nil, fun _ => rfl⟩
  | cons p ps ih =>
    cases hs with
    | nil => cases hlen
    | cons h hs =>
      obtain ⟨hp, hps⟩ := List.forall_mem_cons.mp hp
      obtain ⟨hh, hhs⟩ := List.forall_mem_cons.mp hh
      obtain ⟨b, hb, htakes⟩ := Parameter.accepts_tells derived hp hh
      simp only [acceptsAll, hb, bind, Except.bind, List.forall₂_cons]
      cases b with
      | false =>
        refine Result.tells_ok ⟨fun h => Bool.noConfusion h, fun h => ?_⟩
        exact htakes.mpr h.1
      | true =>
        obtain ⟨b, hb, hall⟩ := ih hps hhs (Nat.succ.inj hlen)
        exact ⟨b, hb, hall.trans ⟨fun h => ⟨htakes.mp rfl, h⟩, fun h => h.2⟩⟩

theorem admits_tells {c : Constructor β} (hp : ∀ p ∈ c.parameters, p.type ≠ none)
    (hh : ∀ h ∈ hs, s.Describes h) : Tells (c.admits s hs derived) (c.Fits derived s hs) := by
  unfold admits
  split
  · next hlen => exact acceptsAll_tells hp hh hlen
  · next hlen =>
    refine Result.tells_ok ⟨fun h => Bool.noConfusion h, fun h => ?_⟩
    exact absurd (List.Forall₂.length_eq h) hlen

end Constructor

namespace Activator

variable {cs before after : List (Constructor β)} {c : Constructor β}

theorem choose_cons {b : Bool} (hb : c.admits s hs derived = .ok b) (cs : List (Constructor β)) :
    choose s hs derived (c :: cs) = if b then .ok (some c) else choose s hs derived cs := by
  simp only [choose, hb]
  rfl

theorem choose_of_first
    (htells : ∀ b ∈ before ++ c :: after, Tells (b.admits s hs derived) (b.Fits derived s hs))
    (hbefore : ∀ b ∈ before, ¬ b.Fits derived s hs) (hc : c.Fits derived s hs) :
    choose s hs derived (before ++ c :: after) = .ok (some c) := by
  induction before with
  | nil =>
    obtain ⟨b, hb, hiff⟩ := htells c (List.mem_cons_self ..)
    rw [List.nil_append, choose_cons hb, if_pos (hiff.mpr hc)]
  | cons c' before ih =>
    obtain ⟨htell, htells⟩ := List.forall_mem_cons.mp htells
    obtain ⟨hnot, hbefore⟩ := List.forall_mem_cons.mp hbefore
    obtain ⟨b, hb, hiff⟩ := htell
    rw [List.cons_append, choose_cons hb, if_neg fun h => hnot (hiff.mp h)]
    exact ih htells hbefore

theorem choose_of_forall_not
    (htells : ∀ b ∈ cs, Tells (b.admits s hs derived) (b.Fits derived s hs))
    (hcs : ∀ b ∈ cs, ¬ b.Fits derived s hs) : choose s hs derived cs = .ok none := by
  induction cs with
  | nil => rfl
  | cons c cs ih =>
    obtain ⟨⟨b, hb, hiff⟩, htells⟩ := List.forall_mem_cons.mp htells
    obtain ⟨hnot, hcs⟩ := List.forall_mem_cons.mp hcs
    rw [choose_cons hb, if_neg fun h => hnot (hiff.mp h)]
    exact ih htells hcs

end Activator

namespace History

variable {η : History β} {t : TypeHandle} {q : Result (Constructor β)}

/-- How a constructor is selected by what was registered. The cases exclude one another, and an
earlier one has precedence. -/
inductive Selects (η : History β) (s : Store) (hs : List Handle) :
    TypeHandle → Result (Constructor β) → Prop
  | null : Selects η s hs none (.error (.object .nullReference))
  | isAbstract {d : Descriptor} (hd : d.isAbstract = true) :
    Selects η s hs (some d) (.error (.object (.abstractType d.fullName)))
  | notConstructible {d : Descriptor} (hd : d.isAbstract = false) (hcs : η.constructorsOf d = []) :
    Selects η s hs (some d) (.error (.object (.notConstructible d.fullName)))
  | first {d : Descriptor} {before after : List (Constructor β)} {c : Constructor β}
    (hd : d.isAbstract = false) (hcs : η.constructorsOf d = before ++ c :: after)
    (hbefore : ∀ b ∈ before, ¬ b.Fits η.options.derived s hs)
    (hc : c.Fits η.options.derived s hs) : Selects η s hs (some d) (.ok c)
  | noMatching {d : Descriptor} (hd : d.isAbstract = false) (hcs : η.constructorsOf d ≠ [])
    (hall : ∀ c ∈ η.constructorsOf d, ¬ c.Fits η.options.derived s hs) :
    Selects η s hs (some d) (.error (.object (.noMatchingConstructor d.fullName hs.length)))

theorem exists_selects (η : History β) (s : Store) (hs : List Handle) (t : TypeHandle) :
    ∃ q, η.Selects s hs t q := by
  classical
  cases t with
  | none => exact ⟨_, .null⟩
  | some d =>
    cases hd : d.isAbstract with
    | true => exact ⟨_, .isAbstract hd⟩
    | false =>
      cases hfind : (η.constructorsOf d).find? (fun c => c.Fits η.options.derived s hs) with
      | some c =>
        obtain ⟨hc, before, after, hcs, hbefore⟩ := List.find?_eq_some_iff_append.mp hfind
        refine ⟨_, .first hd hcs (fun b hb hfits => ?_) (of_decide_eq_true hc)⟩
        simpa [hfits] using hbefore b hb
      | none =>
        have hall := List.find?_eq_none.mp hfind
        by_cases hcs : η.constructorsOf d = []
        · exact ⟨_, .notConstructible hd hcs⟩
        · exact ⟨_, .noMatching hd hcs fun c hc hfits => hall c hc (decide_eq_true hfits)⟩

theorem Selects.ne_argumentCount (hq : η.Selects s hs t q) (m n : Nat) :
    q ≠ .error (.object (.argumentCount m n)) := by
  rintro rfl
  cases hq

theorem Selects.length_eq {c : Constructor β} (hq : η.Selects s hs t (.ok c)) :
    c.parameters.length = hs.length := by
  cases hq with
  | first _ _ _ hc => exact List.Forall₂.length_eq hc

end History

namespace Activator

variable {a : Activator β} {η : History β} {t : TypeHandle} {q : Result (Constructor β)}

theorem Records.constructorsOf_eq (h : a.Records η) (d : Descriptor) :
    a.constructorsOf d = η.constructorsOf d := by
  rw [constructorsOf, h.constructors, History.constructorsOf]

theorem select_of_not_isAbstract {d : Descriptor} (hd : d.isAbstract = false)
    {found : Option (Constructor β)} (hne : a.constructorsOf d ≠ [])
    (hfound : choose s hs a.options.derived (a.constructorsOf d) = .ok found) :
    a.select s (some d) hs =
      match found with
      | some c => .ok c
      | none => .error (.object (.noMatchingConstructor d.fullName hs.length)) := by
  have hempty : (a.constructorsOf d).isEmpty = false := List.isEmpty_eq_false_iff.mpr hne
  simp only [select, Result.ofObject, TypeHandle.get, bind, Except.bind, hd, hempty, hfound]
  cases found <;> rfl

/-- What was registered says which constructor is selected. -/
theorem Records.select_eq (h : a.Records η) (hη : η.IsTyped) (hh : ∀ x ∈ hs, s.Describes x)
    (hq : η.Selects s hs t q) : a.select s t hs = q := by
  have htells : ∀ d, ∀ c ∈ η.constructorsOf d,
      Tells (c.admits s hs η.options.derived) (c.Fits η.options.derived s hs) :=
    fun d c hc => Constructor.admits_tells (hη c (List.mem_filter.mp hc).1) hh
  cases hq with
  | null => rfl
  | isAbstract hd =>
    simp only [select, Result.ofObject, TypeHandle.get, bind, Except.bind, hd]
    rfl
  | @notConstructible d hd hcs =>
    have hempty : a.constructorsOf d = [] := (h.constructorsOf_eq d).trans hcs
    simp only [select, Result.ofObject, TypeHandle.get, bind, Except.bind, hd, hempty]
    rfl
  | @first d before after c hd hcs hbefore hc =>
    have hne : a.constructorsOf d ≠ [] := by
      rw [h.constructorsOf_eq, hcs]
      exact List.append_ne_nil_of_right_ne_nil before (List.cons_ne_nil c after)
    have hfound : choose s hs a.options.derived (a.constructorsOf d) = .ok (some c) := by
      rw [h.options, h.constructorsOf_eq, hcs]
      exact choose_of_first (hcs ▸ htells d) hbefore hc
    exact select_of_not_isAbstract hd hne hfound
  | @noMatching d hd hcs hall =>
    have hne : a.constructorsOf d ≠ [] := by rwa [h.constructorsOf_eq]
    have hfound : choose s hs a.options.derived (a.constructorsOf d) = .ok none := by
      rw [h.options, h.constructorsOf_eq]
      exact choose_of_forall_not (htells d) hall
    exact select_of_not_isAbstract hd hne hfound

theorem Records.select_iff (h : a.Records η) (hη : η.IsTyped) (hh : ∀ x ∈ hs, s.Describes x) :
    a.select s t hs = q ↔ η.Selects s hs t q := by
  constructor
  · intro hq
    obtain ⟨q', hq'⟩ := η.exists_selects s hs t
    rwa [← hq, h.select_eq hη hh hq']
  · exact h.select_eq hη hh

/-- How an activator creates instances from arguments, where `run` is what the bodies do. The body
of the constructor that is selected runs once, with nothing before it, and what it leads to is the
result. Or there is an error, and no body runs. -/
structure Creates (a : Activator β) (run : Running β) (η : History β) (r : Realm)
    (hs : List Handle) : Prop where
  select_iff : ∀ t q, a.select r.store t hs = q ↔ η.Selects r.store hs t q
  not_argumentCount : ∀ t m n, a.select r.store t hs ≠ .error (.object (.argumentCount m n))
  create_of_ok : ∀ t c, η.Selects r.store hs t (.ok c) →
    c.parameters.length = hs.length ∧ a.create run t hs r = run c.declaring c.body hs r
  create_of_error : ∀ t e, η.Selects r.store hs t (.error e) → a.create run t hs r = (.error e, r)
  createByName : ∀ name, a.createByName run name hs r =
    match η.resolve? name with
    | some d => a.create run (some d) hs r
    | none => (.error (.object (.unknownType name)), r)

theorem Records.creates (h : a.Records η) (hη : η.IsTyped) {r : Realm}
    (hh : ∀ x ∈ hs, r.store.Describes x) (run : Running β) : a.Creates run η r hs where
  select_iff _ _ := h.select_iff hη hh
  not_argumentCount t m n hq := ((h.select_iff hη hh).mp hq).ne_argumentCount m n rfl
  create_of_ok t c hc := by
    refine ⟨hc.length_eq, ?_⟩
    rw [create, h.select_eq hη hh hc]
    exact if_pos hc.length_eq
  create_of_error t e he := by rw [create, h.select_eq hη hh he]
  createByName name := by
    rw [Activator.createByName, h.getType_eq]
    cases η.resolve? name <;> rfl

end Activator

end CountedObjects
