import CountedObjects.Proofs.Registry
import Mathlib.Data.List.Nodup

/-! Requests for descriptors in any order, by builders that request others on their way. A record
of all requests, those of builders included, tells what the table holds at every moment. -/
namespace CountedObjects

/-- How a descriptor is built, each step in view of the descriptors that were requested before. -/
inductive Plan
  | finish (draft : Draft) (base : TypeHandle)
  | request (id : TypeId) (other : Plan) (rest : Descriptor → Plan)

def Plan.run : Plan → Registry → (Draft × TypeHandle) × Registry
  | finish draft base, r => ((draft, base), r)
  | request i other rest, r =>
    let (d, r) := r.settle i other.run
    (rest d).run r

/-- A recipe goes on in one way whatever it is given. -/
def Recipe.plan : Recipe → TypeHandle → Plan
  | finish draft, base => .finish draft base
  | derive i other rest, _ => .request i (other.plan none) fun d => rest.plan (some d)
  | also i other rest, base => .request i (other.plan none) fun _ => rest.plan base

theorem Recipe.run_plan (recipe : Recipe) (base : TypeHandle) (r : Registry) :
    (recipe.plan base).run r = recipe.run base r := by
  induction recipe generalizing base r with
  | finish => rfl
  | derive i other rest ihother ihrest =>
    simp only [plan, Plan.run, run, funext (ihother none), ihrest]
  | also i other rest ihother ihrest =>
    simp only [plan, Plan.run, run, funext (ihother none), ihrest]

theorem Registry.request_eq_settle (r : Registry) (i : TypeId) (recipe : Recipe) :
    r.request i recipe = r.settle i (recipe.plan none).run := by
  rw [request, funext (recipe.run_plan none)]

/-- A request that was answered, and the table right after. -/
structure Served where
  id : TypeId
  answer : Descriptor
  built : Bool
  table : Registry

namespace Registry

/-- What one request adds to the record, when `nested` is the record of its builder. -/
def record (r : Registry) (i : TypeId) (build : Registry → (Draft × TypeHandle) × Registry)
    (nested : List Served) : List Served :=
  match r.lookup i with
  | some d => [⟨i, d, false, r⟩]
  | none => nested ++ [⟨i, (r.settle i build).1, true, (r.settle i build).2⟩]

end Registry

/-- The requests that a builder makes, in the order of their answers. -/
def Plan.record : Plan → Registry → List Served
  | finish .., _ => []
  | request i other rest, r =>
    r.record i other.run (other.record r) ++
      (rest (r.settle i other.run).1).record (r.settle i other.run).2

/-- No builder that runs requests a type in `busy`, or one that is being built at that time. -/
def Plan.Avoids : Plan → List TypeId → Registry → Prop
  | finish .., _, _ => True
  | request i other rest, busy, r =>
    i ∉ busy ∧ (r.lookup i = none → other.Avoids (i :: busy) r) ∧
      (rest (r.settle i other.run).1).Avoids busy (r.settle i other.run).2

namespace Registry

/-- The table after a sequence of requests. -/
def serve (r : Registry) : List (TypeId × Plan) → Registry
  | [] => r
  | (i, p) :: qs => (r.settle i p.run).2.serve qs

def served (r : Registry) : List (TypeId × Plan) → List Served
  | [] => []
  | (i, p) :: qs => r.record i p.run (p.record r) ++ (r.settle i p.run).2.served qs

/-- No build requests its own type, directly or through another build. -/
def Avoids (r : Registry) : List (TypeId × Plan) → Prop
  | [] => True
  | (i, p) :: qs => (r.lookup i = none → p.Avoids [i] r) ∧ (r.settle i p.run).2.Avoids qs

variable {r t : Registry} {i j : TypeId} {d e : Descriptor} {draft : Draft} {base : TypeHandle}
  {build : Registry → (Draft × TypeHandle) × Registry}

theorem Avoids.append {qs qs' : List (TypeId × Plan)} (h : r.Avoids (qs ++ qs')) : r.Avoids qs := by
  induction qs generalizing r with
  | nil => trivial
  | cons q qs ih => exact ⟨h.1, ih h.2⟩

theorem serial_bind (h : r.lookup i = none) :
    (r.bind i draft base).1.serial = r.next ∧ (r.bind i draft base).2.next = r.next + 1 := by
  rw [bind_of_none h]
  rcases base with _ | b <;> exact ⟨rfl, rfl⟩

/-- A table that gives for each type what was `heard` to be requested, as all of the record
answers, and nothing for a type not yet requested. -/
structure Recalls (t : Registry) (record heard : List Served) : Prop where
  unheard : ∀ i, i ∉ heard.map (·.id) → t.lookup i = none
  answers : ∀ s ∈ record, s.id ∈ heard.map (·.id) → t.lookup s.id = some s.answer

/-- The record of all requests so far is true of the table, and at each moment it was. -/
structure Told (r : Registry) (record : List Served) : Prop where
  whole : r.Recalls record record
  moments : ∀ before s after, record = before ++ s :: after →
    s.table.Recalls record (before ++ [s])
  once : ((record.filter (·.built)).map (·.id)).Nodup
  fresh : ∀ i d, r.lookup i = some d → d.serial < r.next
  apart : ∀ i j d e, r.lookup i = some d → r.lookup j = some e → d.serial = e.serial → i = j

variable {record heard : List Served} {x : Served}

theorem append_singleton_split {α : Type} {l before after : List α} {a b : α}
    (h : l ++ [a] = before ++ b :: after) :
    (l = before ∧ a = b) ∨ ∃ after', l = before ++ b :: after' := by
  rcases List.eq_nil_or_concat after with rfl | ⟨after', c, rfl⟩
  · obtain ⟨hl, hab⟩ := List.append_inj' h rfl
    exact .inl ⟨hl, List.singleton_inj.mp hab⟩
  · rw [List.concat_eq_append, ← List.cons_append, ← List.append_assoc] at h
    exact .inr ⟨after', (List.append_inj' h rfl).1⟩

/-- One more answer takes nothing from what was recalled, if it repeats what it must. -/
theorem Recalls.more (h : t.Recalls record heard)
    (hx : x.id ∈ heard.map (·.id) → t.lookup x.id = some x.answer) :
    t.Recalls (record ++ [x]) heard where
  unheard := h.unheard
  answers s hs hheard := by
    rcases List.mem_append.mp hs with hs | hs
    · exact h.answers s hs hheard
    · obtain rfl := List.mem_singleton.mp hs
      exact hx hheard

theorem Told.answer_eq (h : r.Told record) {s : Served} (hs : s ∈ record)
    (hd : r.lookup s.id = some d) : s.answer = d :=
  Option.some.inj ((h.whole.answers s hs (List.mem_map_of_mem hs)).symm.trans hd)

theorem Told.mem_ids_iff (h : r.Told record) :
    i ∈ record.map (·.id) ↔ ∃ d, r.lookup i = some d := by
  constructor
  · intro hi
    obtain ⟨s, hs, rfl⟩ := List.mem_map.mp hi
    exact ⟨s.answer, h.whole.answers s hs hi⟩
  · rintro ⟨d, hd⟩
    refine Decidable.byContradiction fun hi => ?_
    rw [h.whole.unheard i hi] at hd
    cases hd

/-- What holds of earlier moments holds of them still after one more answer. -/
theorem Told.moments_more (h : r.Told record)
    (hnow : x.table.Recalls (record ++ [x]) (record ++ [x]))
    (hx : ∀ s ∈ record, s.id = x.id → s.answer = x.answer) {before after : List Served} {s : Served}
    (heq : record ++ [x] = before ++ s :: after) :
    s.table.Recalls (record ++ [x]) (before ++ [s]) := by
  rcases append_singleton_split heq with ⟨rfl, rfl⟩ | ⟨after', hrecord⟩
  · exact hnow
  · have hthen := h.moments before s after' hrecord
    refine hthen.more fun hheard => ?_
    obtain ⟨u, hu, hid⟩ := List.mem_map.mp hheard
    have hmem : u ∈ record := by
      rw [hrecord, ← List.singleton_append, ← List.append_assoc]
      exact List.mem_append_left _ hu
    rw [← hid, ← hx u hmem hid]
    exact hthen.answers u hmem (hid ▸ hheard)

/-- A request for a type that is listed. -/
theorem Told.known (h : r.Told record) (hd : r.lookup i = some d) :
    r.Told (record ++ [⟨i, d, false, r⟩]) := by
  have hmem : i ∈ record.map (·.id) := h.mem_ids_iff.mpr ⟨d, hd⟩
  have hnow : r.Recalls (record ++ [⟨i, d, false, r⟩]) (record ++ [⟨i, d, false, r⟩]) := by
    constructor
    · intro j hj
      refine h.whole.unheard j fun hold => hj ?_
      rw [List.map_append]
      exact List.mem_append_left _ hold
    · intro s hs _
      rcases List.mem_append.mp hs with hs | hs
      · exact h.whole.answers s hs (List.mem_map_of_mem hs)
      · obtain rfl := List.mem_singleton.mp hs
        exact hd
  refine ⟨hnow, fun before s after heq => h.moments_more hnow ?_ heq, ?_, h.fresh, h.apart⟩
  · intro s hs hid
    exact h.answer_eq hs (hid ▸ hd)
  · rw [List.filter_append, List.filter_cons_of_neg (by simp), List.filter_nil, List.append_nil]
    exact h.once

/-- A request whose builder has run. -/
theorem Told.bound (h : r.Told record) (hi : r.lookup i = none) :
    (r.bind i draft base).2.Told
      (record ++ [⟨i, (r.bind i draft base).1, true, (r.bind i draft base).2⟩]) := by
  have hnew : i ∉ record.map (·.id) := fun hmem => by
    obtain ⟨d, hd⟩ := h.mem_ids_iff.mp hmem
    simp [hi] at hd
  have hlookup : ∀ j, (r.bind i draft base).2.lookup j =
      if j = i then some (r.bind i draft base).1 else r.lookup j := lookup_bind hi
  obtain ⟨hserial, hnext⟩ : (r.bind i draft base).1.serial = r.next ∧
      (r.bind i draft base).2.next = r.next + 1 := serial_bind hi
  generalize (r.bind i draft base).1 = d at *
  generalize (r.bind i draft base).2 = r' at *
  have hnow : r'.Recalls (record ++ [⟨i, d, true, r'⟩]) (record ++ [⟨i, d, true, r'⟩]) := by
    constructor
    · intro j hj
      rw [List.map_append, List.mem_append, List.map_singleton, List.mem_singleton, not_or] at hj
      rw [hlookup, if_neg hj.2]
      exact h.whole.unheard j hj.1
    · intro s hs _
      rcases List.mem_append.mp hs with hs | hs
      · have hmem : s.id ∈ record.map (·.id) := List.mem_map_of_mem hs
        have hne : s.id ≠ i := fun heq => hnew (heq ▸ hmem)
        rw [hlookup, if_neg hne]
        exact h.whole.answers s hs hmem
      · obtain rfl := List.mem_singleton.mp hs
        rw [hlookup, if_pos rfl]
  refine ⟨hnow, fun before s after heq => h.moments_more hnow ?_ heq, ?_, ?_, ?_⟩
  · intro s hs hid
    exact absurd (List.mem_map.mpr ⟨s, hs, hid⟩) hnew
  · rw [List.filter_append, List.filter_cons_of_pos rfl, List.filter_nil, List.map_append]
    refine List.nodup_append'.mpr ⟨h.once, List.nodup_singleton i, ?_⟩
    refine List.disjoint_singleton.mpr fun hmem => hnew ?_
    exact (List.Sublist.map _ List.filter_sublist).subset hmem
  · intro j e hj
    rw [hlookup] at hj
    split at hj
    · cases hj
      omega
    · have := h.fresh j e hj
      omega
  · intro j k e f hj hk heq
    rw [hlookup] at hj hk
    split at hj <;> split at hk
    · simp_all
    · cases hj
      have := h.fresh k f hk
      omega
    · cases hk
      have := h.fresh j e hj
      omega
    · exact h.apart j k e f hj hk heq

/-- One request, given what its builder does to the table. -/
theorem Told.settle (h : r.Told record) (i : TypeId)
    (build : Registry → (Draft × TypeHandle) × Registry) (nested : List Served)
    (hbuild : r.lookup i = none →
      (build r).2.Told (record ++ nested) ∧ (build r).2.lookup i = none) :
    (r.settle i build).2.Told (record ++ r.record i build nested) := by
  cases hi : r.lookup i with
  | some d =>
    rw [settle_of_some hi, Registry.record, hi]
    exact h.known hi
  | none =>
    obtain ⟨htold, hnone⟩ := hbuild hi
    rw [Registry.record, hi, settle_of_none hi]
    show Told _ (record ++ (nested ++ [_]))
    rw [← List.append_assoc]
    exact htold.bound hnone

theorem lookup_settle_of_ne (hij : j ≠ i)
    (hbuild : r.lookup i = none → (build r).2.lookup i = none ∧ (build r).2.lookup j = none)
    (hj : r.lookup j = none) : (r.settle i build).2.lookup j = none := by
  cases hi : r.lookup i with
  | some d =>
    rw [settle_of_some hi]
    exact hj
  | none =>
    obtain ⟨hnone, hother⟩ := hbuild hi
    rw [settle_of_none hi, lookup_bind hnone, if_neg hij]
    exact hother

/-- By induction on the plan: a type that is being built stays out of the table until its own
builder has ended, so no other build puts it there. -/
theorem Told.run (p : Plan) {busy : List TypeId} (hp : p.Avoids busy r)
    (hbusy : ∀ j ∈ busy, r.lookup j = none) (h : r.Told record) :
    (p.run r).2.Told (record ++ p.record r) ∧ ∀ j ∈ busy, (p.run r).2.lookup j = none := by
  induction p generalizing busy r record with
  | finish draft base =>
    rw [Plan.record, List.append_nil]
    exact ⟨h, hbusy⟩
  | request i other rest ihother ihrest =>
    obtain ⟨hi, hother, hrest⟩ := hp
    have hnested (hnone : r.lookup i = none) := ihother (hother hnone)
      (List.forall_mem_cons.mpr ⟨hnone, hbusy⟩) h
    have hsettle := h.settle i other.run (other.record r)
      fun hnone => ⟨(hnested hnone).1, (hnested hnone).2 i (List.mem_cons_self ..)⟩
    have hbusy' : ∀ j ∈ busy, (r.settle i other.run).2.lookup j = none := fun j hj =>
      lookup_settle_of_ne (fun heq => hi (heq ▸ hj)) (fun hnone =>
        ⟨(hnested hnone).2 i (List.mem_cons_self ..),
          (hnested hnone).2 j (List.mem_cons_of_mem _ hj)⟩) (hbusy j hj)
    obtain ⟨htold, hkept⟩ := ihrest _ hrest hbusy' hsettle
    rw [Plan.record, ← List.append_assoc]
    exact ⟨htold, hkept⟩

theorem Told.serve {qs : List (TypeId × Plan)} (hq : r.Avoids qs) (h : r.Told record) :
    (r.serve qs).Told (record ++ r.served qs) := by
  induction qs generalizing r record with
  | nil =>
    rw [served, List.append_nil]
    exact h
  | cons q qs ih =>
    obtain ⟨i, p⟩ := q
    have hsettle := h.settle i p.run (p.record r) fun hnone => by
      have hnested := h.run p (hq.1 hnone) (List.forall_mem_singleton.mpr hnone)
      exact ⟨hnested.1, hnested.2 i (List.mem_singleton_self i)⟩
    rw [Registry.served, ← List.append_assoc]
    exact ih hq.2 hsettle

end Registry

end CountedObjects
