import CountedObjects.Registry

/-! The table of descriptors only gets longer, and the base of a descriptor that it gets is one that
it lists. -/
namespace CountedObjects

theorem Descriptor.base?_make (serial : Nat) (i : TypeId) (draft : Draft)
    (base : Option TypeHandle) : (make serial i draft base).base? = base := by
  rcases base with _ | _ | b <;> rfl

namespace Registry

variable {r r' r'' : Registry} {i : TypeId} {d : Descriptor} {base : TypeHandle}

/-- The descriptors of the table, in the order in which they were built. -/
def listed (r : Registry) : List Descriptor := r.bound.map (·.2)

/-- What `r'` lists after the descriptors that `r` lists. -/
def added (r r' : Registry) : List Descriptor := r'.listed.drop r.listed.length

/-- `r'` is a later state of the table. -/
structure Extends (r r' : Registry) : Prop where
  kept : r.listed <+: r'.listed
  bases : ∀ d ∈ r.added r', ∀ b, d.base? = some (some b) → b ∈ r'.listed

/-- Between `r` and `r'` the table was asked for a descriptor, which it lists from then on. -/
structure Provides (r : Registry) (t : TypeHandle) (r' : Registry) : Prop where
  grows : r.Extends r'
  listed : ∀ d, t = some d → d ∈ r'.listed

theorem Extends.listed_eq (h : r.Extends r') : r'.listed = r.listed ++ r.added r' :=
  (List.prefix_iff_eq_append.mp h.kept).symm

theorem added_of_listed_eq {ds : List Descriptor} (h : r'.listed = r.listed ++ ds) :
    r.added r' = ds := by
  rw [added, h, List.drop_left]

theorem Extends.of_listed_eq {ds : List Descriptor} (h : r'.listed = r.listed ++ ds)
    (hb : ∀ d ∈ ds, ∀ b, d.base? = some (some b) → b ∈ r'.listed) : r.Extends r' := by
  refine ⟨⟨ds, h.symm⟩, ?_⟩
  rwa [added_of_listed_eq h]

theorem Extends.refl (r : Registry) : r.Extends r :=
  .of_listed_eq (List.append_nil _).symm (List.forall_mem_nil _)

theorem Extends.trans (h : r.Extends r') (h' : r'.Extends r'') : r.Extends r'' := by
  have hlisted : r''.listed = r.listed ++ (r.added r' ++ r'.added r'') := by
    rw [h'.listed_eq, h.listed_eq, List.append_assoc]
  refine .of_listed_eq hlisted fun d hd b hb => ?_
  rcases List.mem_append.mp hd with hd | hd
  · exact h'.kept.subset (h.bases d hd b hb)
  · exact h'.bases d hd b hb

theorem mem_listed_of_lookup (h : r.lookup i = some d) : d ∈ r.listed := by
  obtain ⟨before, after, hbound, -⟩ := List.lookup_eq_some_iff.mp h
  rw [listed, hbound, List.map_append, List.map_cons]
  exact List.mem_append_right _ (List.mem_cons_self ..)

theorem provides_of_lookup (h : r.lookup i = some d) : r.Provides (some d) r where
  grows := .refl r
  listed _ hd := Option.some.inj hd ▸ mem_listed_of_lookup h

theorem bind_provides (i : TypeId) (draft : Draft) (hb : ∀ b, base = some b → b ∈ r.listed) :
    r.Provides (some (r.bind i draft base).1) (r.bind i draft base).2 := by
  unfold bind
  split
  · next d hd => exact provides_of_lookup hd
  · let d := Descriptor.make r.next i draft (base.map some)
    let r' : Registry := ⟨r.next + 1, r.bound ++ [(i, d)]⟩
    have hlisted : r'.listed = r.listed ++ [d] := List.map_append
    change r.Provides (some d) r'
    constructor
    · refine .of_listed_eq hlisted (List.forall_mem_singleton.mpr fun b hd => ?_)
      rw [Descriptor.base?_make, Option.map_eq_some_iff] at hd
      obtain ⟨_, hbase, hsome⟩ := hd
      rw [hlisted]
      exact List.mem_append_left _ (hb b (hbase.trans hsome))
    · intro _ hd
      rw [hlisted]
      exact Option.some.inj hd ▸ List.mem_append_right _ (List.mem_singleton_self d)

theorem settle_provides {build : Registry → (Draft × TypeHandle) × Registry}
    (h : r.Provides (build r).1.2 (build r).2) (i : TypeId) :
    r.Provides (some (r.settle i build).1) (r.settle i build).2 := by
  unfold settle
  split
  · next d hd => exact provides_of_lookup hd
  · have hbind := bind_provides i (build r).1.1 h.listed
    exact ⟨h.grows.trans hbind.grows, hbind.listed⟩

theorem provides_none (r : Registry) : r.Provides none r := ⟨.refl r, fun _ h => nomatch h⟩

/-- By induction on the recipe: the last descriptor requested as base is listed, and so it stays
while others are requested. -/
theorem run_provides (recipe : Recipe) (h : r.Provides base r') :
    r.Provides (recipe.run base r').1.2 (recipe.run base r').2 := by
  induction recipe generalizing base r r' with
  | finish draft => exact h
  | derive i other rest ihother ihrest =>
    have hother := settle_provides (ihother (provides_none r')) i
    exact ihrest ⟨h.grows.trans hother.grows, hother.listed⟩
  | also i other rest ihother ihrest =>
    have hother := settle_provides (ihother (provides_none r')) i
    have hbase : ∀ b, base = some b → b ∈ (r'.settle i (other.run none)).2.listed :=
      fun b hb => hother.grows.kept.subset (h.listed b hb)
    exact ihrest ⟨h.grows.trans hother.grows, hbase⟩

theorem request_extends (r : Registry) (i : TypeId) (recipe : Recipe) :
    r.Extends (r.request i recipe).2 :=
  (settle_provides (run_provides recipe (provides_none r)) i).grows

variable {draft : Draft} {build : Registry → (Draft × TypeHandle) × Registry}

theorem settle_of_some (h : r.lookup i = some d) : r.settle i build = (d, r) := by
  rw [settle, h]

theorem typeOf_of_lookup {k : Kind} (h : r.lookup (.kind k) = some d) : r.typeOf k = (d, r) := by
  rw [typeOf, request, settle_of_some h]

theorem settle_of_none (h : r.lookup i = none) :
    r.settle i build = (build r).2.bind i (build r).1.1 (build r).1.2 := by
  rw [settle, h]

theorem bind_of_none (h : r.lookup i = none) :
    r.bind i draft base = (.make r.next i draft (base.map some),
      ⟨r.next + 1, r.bound ++ [(i, .make r.next i draft (base.map some))]⟩) := by
  rw [bind, h]
  rfl

/-- A new entry is found under its type, every other lookup is as before. -/
theorem lookup_bind (h : r.lookup i = none) (j : TypeId) :
    (r.bind i draft base).2.lookup j =
      if j = i then some (r.bind i draft base).1 else r.lookup j := by
  rw [bind_of_none h]
  show List.lookup j (r.bound ++ [(i, _)]) = _
  rw [List.lookup_append, List.lookup_cons, List.lookup_nil]
  by_cases hj : j = i
  · subst hj
    rw [show r.bound.lookup j = none from h, if_pos rfl]
    simp
  · rw [if_neg hj, beq_false_of_ne hj]
    exact Option.or_none

theorem lookup_settle (r : Registry) (i : TypeId)
    (build : Registry → (Draft × TypeHandle) × Registry) :
    (r.settle i build).2.lookup i = some (r.settle i build).1 := by
  cases hi : r.lookup i with
  | some d => rw [settle_of_some hi, hi]
  | none =>
    rw [settle_of_none hi]
    cases hnow : (build r).2.lookup i with
    | some d => rw [bind, hnow, hnow]
    | none => rw [lookup_bind hnow, if_pos rfl]

/-- What is found in the table is found there ever after. -/
def Keeps (r r' : Registry) : Prop := ∀ i d, r.lookup i = some d → r'.lookup i = some d

theorem Keeps.refl (r : Registry) : r.Keeps r := fun _ _ h => h

theorem Keeps.trans (h : r.Keeps r') (h' : r'.Keeps r'') : r.Keeps r'' :=
  fun i d hd => h' i d (h i d hd)

theorem settle_keeps (hbuild : r.Keeps (build r).2) (i : TypeId) :
    r.Keeps (r.settle i build).2 := by
  cases hi : r.lookup i with
  | some d =>
    rw [settle_of_some hi]
    exact .refl r
  | none =>
    rw [settle_of_none hi]
    refine hbuild.trans ?_
    cases hnow : (build r).2.lookup i with
    | some d =>
      rw [bind, hnow]
      exact .refl _
    | none =>
      intro j e he
      rw [lookup_bind hnow]
      split
      · next hj =>
        rw [hj, hnow] at he
        cases he
      · exact he

/-- By induction on the recipe, through the requests that a builder makes. -/
theorem run_keeps (recipe : Recipe) (base : TypeHandle) (r : Registry) :
    r.Keeps (recipe.run base r).2 := by
  induction recipe generalizing base r with
  | finish draft => exact .refl r
  | derive i other rest ihother ihrest => exact (settle_keeps (ihother none r) i).trans (ihrest _ _)
  | also i other rest ihother ihrest => exact (settle_keeps (ihother none r) i).trans (ihrest _ _)

theorem request_keeps (r : Registry) (i : TypeId) (recipe : Recipe) :
    r.Keeps (r.request i recipe).2 :=
  settle_keeps (run_keeps recipe none r) i

end Registry

end CountedObjects
