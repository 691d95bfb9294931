import CountedObjects.Proofs.Assignability
import CountedObjects.Proofs.Selection
import CountedObjects.Proofs.Session.Casts

/-! The kind of an object and the type that it reports. The two agree unless objects of the kind
report a type of their own choice. -/
namespace CountedObjects

open Result (Tells)

/-- Whether objects of a kind report the descriptor of the kind. An enum value reports the one of
its enumeration instead, and a `dyn` the one that it was made with. -/
def Kind.reportsItself : Kind → Bool
  | enumValue | dyn => false
  | _ => true

/-- What the tests of its reported type say of an object of a kind. -/
structure Kind.Instances (k : Kind) (r : Realm) (o : Handle) : Prop where
  /-- An object that reports its kind is an instance of it, and is taken for every parameter of
  that type. -/
  own : k.reportsItself = true →
    r.store.isInstanceOf o (some (r.registry.typeOf k).1) = .ok true ∧
      ∀ (p : Parameter) derived, p.type = some (r.registry.typeOf k).1 →
        p.accepts r.store o derived = .ok true
  enumValue : ∀ d n, r.store.body? o = some (.enumValue d n) →
    r.store.reportedType o = .ok (some d)
  dyn : ∀ t tag hs, r.store.body? o = some (.dyn t tag hs) → r.store.reportedType o = .ok t
  /-- Otherwise the tests look for the type of the kind among those that the reported type derives
  from. -/
  reported : ∀ d, r.store.reportedType o = .ok (some d) → d.IsRooted →
    Tells (r.store.isInstanceOf o (some (r.registry.typeOf k).1))
        (∃ x ∈ d :: d.ancestors, x.id = (r.registry.typeOf k).1.id) ∧
      ∀ p : Parameter, p.type = some (r.registry.typeOf k).1 →
        Tells (p.accepts r.store o true)
          (∃ x ∈ d :: d.ancestors, x.id = (r.registry.typeOf k).1.id)

variable {r : Realm} {o : Handle} {k : Kind}

theorem Cell.reported_of_reportsItself {c : Cell} (h : c.body.kind.reportsItself = true) :
    c.reported = some c.type := by
  unfold reported
  split
  · next hb => rw [hb] at h; cases h
  · next hb => rw [hb] at h; cases h
  · rfl

theorem Store.reportedType_of_body? {s : Store} {b : Body} (hb : s.body? o = some b) :
    ∃ c : Cell, c.body = b ∧ s.reportedType o = .ok c.reported := by
  cases o with
  | null | type => cases hb
  | object id =>
    obtain ⟨c, hc, hcb⟩ := Option.map_eq_some_iff.mp hb
    exact ⟨c, hcb, reportedType_of_find? hc⟩

/-- An object reports the type of its kind unless objects of the kind report another one. -/
theorem Realm.Described.reportedType_of_isKind (h : r.Described) (hk : r.store.isKind k o = true)
    (hown : k.reportsItself = true) :
    r.store.reportedType o = .ok (some (r.registry.typeOf k).1) := by
  obtain ⟨x, hx, rfl⟩ := Store.isKind_eq_true_iff.mp hk
  cases o with
  | null => cases hx
  | type d =>
    cases hx
    have htype := Registry.typeOf_of_lookup h.metatype
    rw [Pointee.kind, htype]
    rfl
  | object id =>
    obtain ⟨c, hc, rfl⟩ := Option.map_eq_some_iff.mp hx
    have htype := Registry.typeOf_of_lookup (h.object id c hc)
    have hreported := Cell.reported_of_reportsItself (c := c) hown
    rw [Pointee.kind, htype, ← hreported]
    exact Store.reportedType_of_find? hc

theorem Realm.Described.instances (h : r.Described) (hk : r.store.isKind k o = true) :
    k.Instances r o where
  own hown := by
    have hd := h.reportedType_of_isKind hk hown
    refine ⟨?_, fun p derived hp => ?_⟩
    · rw [Store.isInstanceOf_eq hd, Descriptor.isAssignableFrom, if_pos rfl]
    · rw [Parameter.accepts_eq hd hp, if_pos rfl]
  enumValue d n hb := by
    obtain ⟨c, hc, hreported⟩ := Store.reportedType_of_body? hb
    rw [hreported, Cell.reported, hc]
  dyn t tag hs hb := by
    obtain ⟨c, hc, hreported⟩ := Store.reportedType_of_body? hb
    rw [hreported, Cell.reported, hc]
  reported d hd hroot := by
    have htells := hroot.isAssignableFrom_tells (r.registry.typeOf k).1
    refine ⟨Store.isInstanceOf_eq hd _ ▸ htells, fun p hp => ?_⟩
    rw [Parameter.accepts_eq hd hp]
    split
    · next hdk => exact Result.tells_ok (iff_of_true rfl ⟨d, List.mem_cons_self, hdk ▸ rfl⟩)
    · exact htells

namespace Session

/-- After any steps, an object of a kind is an instance of the type that the kind has, if it is a
type that it reports. -/
theorem run_instances (steps : List Step) (k : Kind) :
    let s := (start.advanceAll steps).2
    ∀ o, s.store.isKind k o = true → k.Instances s.realm o :=
  fun _ hk => (run_described steps).instances hk

theorem run_instances_dog :
    ∃ steps o,
      let s := (start.advanceAll steps).2
      s.store.isKind .dog o = true ∧ Kind.dog.Instances s.realm o := by
  have hk : (start.advanceAll [.handle (.new "d" .dog)]).2.store.isKind .dog (.object 0) =
      true := by
    decide +kernel
  exact ⟨_, _, hk, run_instances _ .dog _ hk⟩

/-- An enum value reports its enumeration, and is no instance of the type of enum values. -/
theorem run_instances_enumValue :
    ∃ steps,
      let s := (start.advanceAll steps).2
      let d := (s.realm.registry.typeOf .enumValue).1
      s.store.isKind .enumValue (s.handle "c") = true ∧
        s.store.isInstanceOf (s.handle "c") (some d) = .ok false ∧
        (Parameter.mk "value" (some d)).accepts s.store (s.handle "c") true = .ok false := by
  refine ⟨[.handle (.new "c" (.member .colors "Red"))], ?_⟩
  exact ⟨by decide +kernel, by decide +kernel, by decide +kernel⟩

end Session

end CountedObjects
