import Mathlib.Data.List.Nodup
import Mathlib.Data.List.Perm.Subperm
import Mathlib.Logic.Relation
import CountedObjects.Cast
import CountedObjects.Proofs.Registry

/-! Descriptors in the order that their base links give them, and the tests of that order. -/
namespace CountedObjects

/-- A question that is answered, and by the truth of a statement. -/
def Result.Tells (r : Result Bool) (P : Prop) : Prop := ∃ b, r = .ok b ∧ (b = true ↔ P)

open Result (Tells)
open Relation (TransGen ReflTransGen)

theorem Result.tells_ok {b : Bool} {P : Prop} (h : b = true ↔ P) : Tells (.ok b) P := ⟨b, rfl, h⟩

namespace Result.Tells

variable {r : Result Bool} {P Q : Prop}

theorem congr (h : Tells r P) (hpq : P ↔ Q) : Tells r Q := by
  obtain ⟨b, hb, hiff⟩ := h
  exact ⟨b, hb, hiff.trans hpq⟩

theorem eq_true_iff (h : Tells r P) : r = .ok true ↔ P := by
  obtain ⟨b, rfl, hiff⟩ := h
  rw [Except.ok.injEq]
  exact hiff

end Result.Tells

namespace Descriptor

variable {d e b : Descriptor} {i : TypeId}

/-- The base link of `d` leads to `b`. -/
def HasBase (d b : Descriptor) : Prop := d.base? = some (some b)

theorem HasBase.ancestors_eq (h : HasBase d b) : d.ancestors = b :: b.ancestors := by
  cases d with
  | root | severed => cases h
  | derived => cases h; rfl

theorem mem_ancestors_iff : e ∈ d.ancestors ↔ TransGen HasBase d e := by
  constructor
  · intro he
    induction d with
    | root | severed => exact absurd he List.not_mem_nil
    | derived serial id draft b ih =>
      have hb : HasBase (derived serial id draft b) b := rfl
      rcases List.mem_cons.mp he with rfl | he
      · exact .single hb
      · exact .head hb (ih he)
  · intro he
    -- The path is taken apart at its first link, as the list of ancestors is.
    induction he using TransGen.head_induction_on with
    | single hb =>
      rw [hb.ancestors_eq]
      exact List.mem_cons_self
    | head hb _ ih =>
      rw [hb.ancestors_eq]
      exact List.mem_cons_of_mem _ ih

theorem mem_cons_ancestors_iff : e ∈ d :: d.ancestors ↔ ReflTransGen HasBase d e := by
  rw [List.mem_cons, mem_ancestors_iff, Relation.reflTransGen_iff_eq_or_transGen]

/-- A descriptor is built after its base, so a base link leads to a shorter chain. -/
theorem length_ancestors_lt (h : TransGen HasBase d e) :
    e.ancestors.length < d.ancestors.length := by
  have hlink : ∀ {d b}, HasBase d b → b.ancestors.length < d.ancestors.length := fun hb => by
    rw [hb.ancestors_eq, List.length_cons]
    exact Nat.lt_succ_self _
  induction h with
  | single hb => exact hlink hb
  | tail _ hb ih => exact Nat.lt_trans (hlink hb) ih

theorem not_transGen_self (d : Descriptor) : ¬ TransGen HasBase d d :=
  fun h => Nat.lt_irrefl _ (length_ancestors_lt h)

theorem nodup_cons_ancestors (d : Descriptor) : (d :: d.ancestors).Nodup := by
  have hself : ∀ d : Descriptor, d ∉ d.ancestors :=
    fun d hd => d.not_transGen_self (mem_ancestors_iff.mp hd)
  induction d with
  | root | severed => exact List.nodup_singleton _
  | derived _ _ _ b ih => exact List.nodup_cons.mpr ⟨hself _, ih⟩

/-- A descriptor whose base links end at a root and not at a null link. -/
def IsRooted : Descriptor → Prop
  | root .. => True
  | severed .. => False
  | derived _ _ _ b => b.IsRooted

instance instDecidableIsRooted : (d : Descriptor) → Decidable d.IsRooted
  | root .. => .isTrue trivial
  | severed .. => .isFalse not_false
  | derived _ _ _ b => instDecidableIsRooted b

theorem not_isRooted_iff : ¬ d.IsRooted ↔ ∃ x ∈ d :: d.ancestors, x.base? = some none := by
  induction d with
  | root => simp [IsRooted, ancestors, base?]
  | severed => simp [IsRooted, ancestors, base?]
  | derived _ _ _ b ih => simpa [IsRooted, ancestors, base?] using ih

/-- The walk stops at the identity it looks for, or else at the end of the chain. -/
theorem isSubclassOf_eq (d : Descriptor) (i : TypeId) :
    d.isSubclassOf i =
      if i ∈ d.ancestors.map Descriptor.id then .ok true
      else if d.IsRooted then .ok false else .error (.abort .nullReference) := by
  induction d with
  | root => rfl
  | severed => rfl
  | derived _ _ _ b ih =>
    rw [isSubclassOf, ancestors, List.map_cons, ih]
    by_cases hb : b.id = i
    · rw [if_pos hb, if_pos (hb ▸ List.mem_cons_self)]
    · simp only [if_neg hb, List.mem_cons, Ne.symm hb, false_or, IsRooted]

theorem IsRooted.isSubclassOf_tells (hd : d.IsRooted) (i : TypeId) :
    Tells (d.isSubclassOf i) (∃ x ∈ d.ancestors, x.id = i) := by
  rw [isSubclassOf_eq, if_pos hd, ← List.mem_map]
  split
  · next hi => exact Result.tells_ok (iff_of_true rfl hi)
  · next hi => exact Result.tells_ok (iff_of_false Bool.false_ne_true hi)

/-- A value can stand in for a type if it or one of its ancestors has the type's identity. -/
theorem IsRooted.isAssignableFrom_tells (hd : d.IsRooted) (e : Descriptor) :
    Tells (e.isAssignableFrom d) (∃ x ∈ d :: d.ancestors, x.id = e.id) := by
  unfold isAssignableFrom
  split
  · next he => exact Result.tells_ok ⟨fun _ => ⟨d, List.mem_cons_self .., he.symm⟩, fun _ => rfl⟩
  · next he =>
    refine (hd.isSubclassOf_tells e.id).congr ?_
    simp only [List.mem_cons, exists_eq_or_imp, Ne.symm he, false_or]

/-- Descriptors, the last one built in front. Each has an identity of its own, and no base or one
of those built before it. -/
inductive Family : List Descriptor → Prop
  | nil : Family []
  | build {ds : List Descriptor} (h : Family ds) (serial : Nat) {id : TypeId} (draft : Draft)
    {base : Option Descriptor} (hid : ∀ d ∈ ds, d.id ≠ id) (hbase : ∀ b ∈ base, b ∈ ds) :
    Family (make serial id draft (base.map some) :: ds)

namespace Family

variable {ds : List Descriptor}

theorem exists_base {t : TypeHandle} (h : Family ds) (hd : d ∈ ds) (ht : d.base? = some t) :
    ∃ b ∈ ds, t = some b := by
  induction h with
  | nil => cases hd
  | @build ds _ serial id draft base _ hbase ih =>
    rcases List.mem_cons.mp hd with rfl | hd
    · cases base with
      | none => cases ht
      | some b =>
        cases ht
        exact ⟨b, List.mem_cons_of_mem _ (hbase b rfl), rfl⟩
    · obtain ⟨b, hb, htb⟩ := ih hd
      exact ⟨b, List.mem_cons_of_mem _ hb, htb⟩

theorem mem_of_reaches (h : Family ds) (hd : d ∈ ds) (he : ReflTransGen HasBase d e) : e ∈ ds := by
  induction he with
  | refl => exact hd
  | tail _ hb ih =>
    obtain ⟨_, hmem, hsome⟩ := h.exists_base ih hb
    exact Option.some.inj hsome ▸ hmem

theorem isRooted (h : Family ds) (hd : d ∈ ds) : d.IsRooted := by
  by_contra hd'
  obtain ⟨x, hx, hnull⟩ := not_isRooted_iff.mp hd'
  obtain ⟨_, _, hb⟩ := h.exists_base (h.mem_of_reaches hd (mem_cons_ancestors_iff.mp hx)) hnull
  cases hb

theorem eq_of_id (h : Family ds) (hd : d ∈ ds) (he : e ∈ ds) (hid : d.id = e.id) : d = e := by
  induction h with
  | nil => cases hd
  | @build ds _ serial id draft base hfresh _ ih =>
    have hmake : (make serial id draft (base.map some)).id = id := by cases base <;> rfl
    rcases List.mem_cons.mp hd with rfl | hd <;> rcases List.mem_cons.mp he with rfl | he
    · rfl
    · exact absurd (hid.symm.trans hmake) (hfresh e he)
    · exact absurd (hid.trans hmake) (hfresh d hd)
    · exact ih hd he

/-- Within a family an identity on a chain of bases stands for one descriptor. -/
theorem exists_id_iff (h : Family ds) (he : e ∈ ds) {l : List Descriptor} (hl : l ⊆ ds) :
    (∃ x ∈ l, x.id = e.id) ↔ e ∈ l := by
  constructor
  · rintro ⟨x, hx, hid⟩
    exact h.eq_of_id (hl hx) he hid ▸ hx
  · exact fun hmem => ⟨e, hmem, rfl⟩

theorem cons_ancestors_subset (h : Family ds) (hd : d ∈ ds) : d :: d.ancestors ⊆ ds :=
  fun _ hx => h.mem_of_reaches hd (mem_cons_ancestors_iff.mp hx)

theorem isSubclassOf_tells (h : Family ds) (hd : d ∈ ds) (he : e ∈ ds) :
    Tells (d.isSubclassOf e.id) (TransGen HasBase d e) := by
  refine ((h.isRooted hd).isSubclassOf_tells e.id).congr ?_
  rw [h.exists_id_iff he (List.subset_of_cons_subset (h.cons_ancestors_subset hd)),
    mem_ancestors_iff]

theorem isAssignableFrom_tells (h : Family ds) (hd : d ∈ ds) (he : e ∈ ds) :
    Tells (e.isAssignableFrom d) (ReflTransGen HasBase d e) := by
  refine ((h.isRooted hd).isAssignableFrom_tells e).congr ?_
  rw [h.exists_id_iff he (h.cons_ancestors_subset hd), mem_cons_ancestors_iff]

theorem isAssignableFrom_iff (h : Family ds) (hd : d ∈ ds) (he : e ∈ ds) :
    e.isAssignableFrom d = .ok true ↔ ReflTransGen HasBase d e :=
  (h.isAssignableFrom_tells hd he).eq_true_iff

end Family

end Descriptor

theorem Store.isInstanceOf_eq {s : Store} {h : Handle} {d : Descriptor}
    (hd : s.reportedType h = .ok (some d)) (t : Descriptor) :
    s.isInstanceOf h (some t) = t.isAssignableFrom d := by
  have hisNull : h.isNull = false := by
    cases h with
    | null => cases hd
    | type | object => rfl
  simp only [isInstanceOf, hisNull, hd, TypeHandle.demand, bind, Except.bind, Bool.false_eq_true,
    if_false]

namespace Descriptor

/-- The tests of a family say how its members derive from one another. That `d` can stand in for
`e` is a partial order, and that it is a subclass of `e` is its strict part. -/
structure Assignability (ds : List Descriptor) : Prop where
  walk : ∀ d ∈ ds, (d :: d.ancestors).Nodup ∧ d :: d.ancestors ⊆ ds ∧
    d.ancestors.length < ds.length
  isSubclassOf : ∀ d ∈ ds, ∀ e ∈ ds, Tells (d.isSubclassOf e.id) (TransGen HasBase d e)
  isAssignableFrom : ∀ d ∈ ds, ∀ e ∈ ds, Tells (e.isAssignableFrom d) (ReflTransGen HasBase d e)
  refl : ∀ d ∈ ds, d.isAssignableFrom d = .ok true
  trans : ∀ d ∈ ds, ∀ e ∈ ds, ∀ f ∈ ds, e.isAssignableFrom d = .ok true →
    f.isAssignableFrom e = .ok true → f.isAssignableFrom d = .ok true
  antisymm : ∀ d ∈ ds, ∀ e ∈ ds, e.isAssignableFrom d = .ok true →
    d.isAssignableFrom e = .ok true → d = e
  strict : ∀ d ∈ ds, ∀ e ∈ ds,
    d.isSubclassOf e.id = .ok true ↔ e.isAssignableFrom d = .ok true ∧ d ≠ e
  root : ∀ d ∈ ds, ∀ o, (d :: d.ancestors).getLast? = some o → o.isAssignableFrom d = .ok true
  isInstanceOf : ∀ (s : Store) (h : Handle), ∀ d ∈ ds, s.reportedType h = .ok (some d) →
    ∀ t ∈ ds, ∀ u ∈ ds, s.isInstanceOf h (some t) = .ok true →
      u.isAssignableFrom t = .ok true → s.isInstanceOf h (some u) = .ok true

theorem Family.partialOrder {ds : List Descriptor} (h : Family ds) : Assignability ds := by
  have htrans : ∀ d ∈ ds, ∀ e ∈ ds, ∀ f ∈ ds, e.isAssignableFrom d = .ok true →
      f.isAssignableFrom e = .ok true → f.isAssignableFrom d = .ok true := by
    intro d hd e he f hf hde hef
    rw [h.isAssignableFrom_iff hd he] at hde
    rw [h.isAssignableFrom_iff he hf] at hef
    exact (h.isAssignableFrom_iff hd hf).mpr (hde.trans hef)
  constructor
  case walk =>
    intro d hd
    have hnodup := d.nodup_cons_ancestors
    have hsub := h.cons_ancestors_subset hd
    exact ⟨hnodup, hsub, (hnodup.subperm hsub).length_le⟩
  case isSubclassOf => exact fun d hd e he => h.isSubclassOf_tells hd he
  case isAssignableFrom => exact fun d hd e he => h.isAssignableFrom_tells hd he
  case refl => exact fun d hd => (h.isAssignableFrom_iff hd hd).mpr .refl
  case trans => exact htrans
  case antisymm =>
    intro d hd e he hde hed
    rw [h.isAssignableFrom_iff hd he, Relation.reflTransGen_iff_eq_or_transGen] at hde
    rw [h.isAssignableFrom_iff he hd] at hed
    rcases hde with rfl | hde
    · rfl
    · exact absurd (hde.trans_left hed) d.not_transGen_self
  case strict =>
    intro d hd e he
    rw [(h.isSubclassOf_tells hd he).eq_true_iff, h.isAssignableFrom_iff hd he]
    constructor
    · intro hde
      refine ⟨hde.to_reflTransGen, ?_⟩
      rintro rfl
      exact d.not_transGen_self hde
    · rintro ⟨hde, hne⟩
      exact (Relation.reflTransGen_iff_eq_or_transGen.mp hde).resolve_left (Ne.symm hne)
  case root =>
    intro d hd o ho
    have hmem := List.mem_of_getLast? ho
    exact (h.isAssignableFrom_iff hd (h.cons_ancestors_subset hd hmem)).mpr
      (mem_cons_ancestors_iff.mp hmem)
  case isInstanceOf =>
    intro s x d hd hx t ht u hu hinst htu
    rw [Store.isInstanceOf_eq hx] at hinst ⊢
    exact htrans d hd t ht u hu hinst htu

/-- Descriptors of which each has no base or one built before it are partially ordered. On a chain
of bases that ends at a null handle the walk aborts unless it finds what it looks for before. -/
theorem assignability :
    (∀ ds, Family ds → Assignability ds) ∧
      ∀ d : Descriptor, (∃ x ∈ d :: d.ancestors, x.base? = some none) → ∀ i,
        d.isSubclassOf i =
          if i ∈ d.ancestors.map Descriptor.id then .ok true
          else .error (.abort .nullReference) := by
  refine ⟨fun _ h => h.partialOrder, fun d hnull i => ?_⟩
  rw [isSubclassOf_eq, if_neg (not_isRooted_iff.mpr hnull)]

theorem assignability_dog :
    ∃ object animal dog stray puppy : Descriptor,
      Family [dog, animal, object] ∧ HasBase dog animal ∧ HasBase animal object ∧
      Assignability [dog, animal, object] ∧
      HasBase puppy stray ∧ stray.base? = some none ∧
      puppy.isSubclassOf stray.id = .ok true ∧
      puppy.isSubclassOf object.id = .error (.abort .nullReference) := by
  let object : Descriptor := .root 0 .object ⟨"System", "Object", true, none⟩
  let animal : Descriptor := .derived 1 (.custom 0) (.plain "Pets" "Animal") object
  let dog : Descriptor := .derived 2 (.custom 1) (.plain "Pets" "Dog") animal
  let stray : Descriptor := .severed 3 (.custom 2) (.plain "Pets" "Stray")
  let puppy : Descriptor := .derived 4 (.custom 3) (.plain "Pets" "Puppy") stray
  have hobject : Family [object] := @Family.build _ .nil 0 _ _ none (by simp) (by simp)
  have hanimal : Family [animal, object] :=
    @Family.build _ hobject 1 _ _ (some object) (by decide) (by simp)
  have hdog : Family [dog, animal, object] :=
    @Family.build _ hanimal 2 _ _ (some animal) (by decide) (by simp)
  have hnull : ∃ x ∈ puppy :: puppy.ancestors, x.base? = some none := ⟨stray, by decide, rfl⟩
  exact ⟨object, animal, dog, stray, puppy, hdog, rfl, rfl, assignability.1 _ hdog, rfl, rfl,
    assignability.2 puppy hnull stray.id, assignability.2 puppy hnull object.id⟩

end Descriptor

namespace Registry

variable {r : Registry} {i : TypeId} {draft : Draft} {base : TypeHandle}

/-- The table lists a family, each member under the identity that it has. -/
structure Ranked (r : Registry) : Prop where
  family : Descriptor.Family r.listed.reverse
  id_eq : ∀ p ∈ r.bound, p.2.id = p.1

theorem ranked_empty : empty.Ranked := ⟨.nil, List.forall_mem_nil _⟩

theorem Ranked.id_ne_of_lookup (h : r.Ranked) (hi : r.lookup i = none) :
    ∀ d ∈ r.listed.reverse, d.id ≠ i := by
  rintro d hd rfl
  obtain ⟨p, hp, rfl⟩ := List.mem_map.mp (List.mem_reverse.mp hd)
  have hne := List.lookup_eq_none_iff.mp hi p hp
  rw [h.id_eq p hp, bne_self_eq_false] at hne
  cases hne

/-- A new descriptor has an identity that the table does not list, and a base that it does. -/
theorem Ranked.bind (h : r.Ranked) (hb : ∀ b, base = some b → b ∈ r.listed) :
    (r.bind i draft base).2.Ranked := by
  cases hi : r.lookup i with
  | some d =>
    rw [Registry.bind, hi]
    exact h
  | none =>
    rw [bind_of_none hi]
    constructor
    · rw [listed, List.map_append, List.map_singleton, List.reverse_append]
      exact h.family.build r.next draft (h.id_ne_of_lookup hi) fun b hm =>
        List.mem_reverse.mpr (hb b hm)
    · intro p hp
      rcases List.mem_append.mp hp with hp | hp
      · exact h.id_eq p hp
      · rw [List.mem_singleton.mp hp]
        cases base <;> rfl

theorem Ranked.settle {build : Registry → (Draft × TypeHandle) × Registry} (h : r.Ranked)
    (hbuild : (build r).2.Ranked) (hbase : r.Provides (build r).1.2 (build r).2) (i : TypeId) :
    (r.settle i build).2.Ranked := by
  cases hi : r.lookup i with
  | some d =>
    rw [settle_of_some hi]
    exact h
  | none =>
    rw [settle_of_none hi]
    exact hbuild.bind hbase.listed

/-- By induction on the recipe, through the requests that a builder makes. -/
theorem Ranked.run (recipe : Recipe) (h : r.Ranked) : (recipe.run base r).2.Ranked := by
  induction recipe generalizing base r with
  | finish draft => exact h
  | derive i other rest ihother ihrest | also i other rest ihother ihrest =>
    have hother : r.Provides (other.run none r).1.2 (other.run none r).2 :=
      run_provides other (provides_none r)
    exact ihrest (h.settle (ihother h) hother i)

theorem Ranked.request (h : r.Ranked) (i : TypeId) (recipe : Recipe) :
    (r.request i recipe).2.Ranked :=
  h.settle (h.run recipe) (run_provides recipe (provides_none r)) i

/-- After any requests the descriptors of the table are partially ordered. -/
theorem assignability_requests (requests : List (TypeId × Recipe)) :
    Descriptor.Assignability
      (requests.foldl (fun r q => (r.request q.1 q.2).2) empty).listed.reverse := by
  have hranked : ∀ r : Registry, r.Ranked →
      (requests.foldl (fun r q => (r.request q.1 q.2).2) r).Ranked := by
    induction requests with
    | nil => exact fun _ h => h
    | cons q requests ih => exact fun _ h => ih _ (h.request q.1 q.2)
  exact (hranked empty ranked_empty).family.partialOrder

end Registry

end CountedObjects
