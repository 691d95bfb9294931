import CountedObjects.Proofs.Requests
import Mathlib.Data.List.Perm.Basic

/-! What the table says of each type when every type has one builder. A request is answered as if
each builder ran by itself, so the order of the requests leaves no trace but the serial numbers. -/
namespace CountedObjects

namespace Descriptor

/-- All that a descriptor says, and not which one it is: serial numbers are left out along the
chain of bases. -/
def form : Descriptor → Descriptor
  | root _ i draft => root 0 i draft
  | severed _ i draft => severed 0 i draft
  | derived _ i draft base => derived 0 i draft base.form

/-- What a builder's result becomes when its descriptor is the first of all. -/
def first (i : TypeId) (o : Draft × TypeHandle) : Descriptor := make 0 i o.1 (o.2.map some)

@[simp] theorem form_form (d : Descriptor) : d.form.form = d.form := by
  induction d with
  | root | severed => rfl
  | derived s i draft base ih => exact congrArg (derived 0 i draft) ih

theorem form_make (serial : Nat) (i : TypeId) (draft : Draft) (base : TypeHandle) :
    (make serial i draft (base.map some)).form = first i (draft, base.map form) := by
  cases base <;> rfl

end Descriptor

open Descriptor (form first)

namespace Plan

/-- What a builder comes to when each request is answered by its own builder. -/
def outcome : Plan → Draft × TypeHandle
  | finish draft base => (draft, base.map form)
  | request i other rest => (rest (first i other.outcome)).outcome

/-- The types that a builder requests, those that other builders request for it included. -/
def needs : Plan → List TypeId
  | finish .. => []
  | request i other rest => other.needs ++ i :: (rest (first i other.outcome)).needs

/-- Two runs of one builder: every request names the builder that the book has for the type, and
answers of one form lead on in one way. -/
inductive Keeps (book : TypeId → Plan) : Plan → Plan → Prop
  | finish (draft : Draft) (base base' : TypeHandle) (same : base.map form = base'.map form) :
      Keeps book (finish draft base) (finish draft base')
  | request (i : TypeId) (rest rest' : Descriptor → Plan)
      (other : Keeps book (book i) (book i))
      (alike : ∀ d d', d.form = d'.form → Keeps book (rest d) (rest' d')) :
      Keeps book (request i (book i) rest) (request i (book i) rest')

theorem form_outcome (p : Plan) : p.outcome.2.map form = p.outcome.2 := by
  induction p with
  | finish draft base => cases base <;> simp [outcome]
  | request i other rest ihother ihrest => exact ihrest _

@[simp] theorem form_first_outcome (i : TypeId) (p : Plan) :
    (first i p.outcome).form = first i p.outcome := by
  conv_rhs => rw [first, ← form_outcome]
  rw [first, Descriptor.form_make]
  rfl

end Plan

namespace Registry

variable {book : TypeId → Plan} {r : Registry} {i j : TypeId} {d : Descriptor}

/-- The form of the descriptor that the book's builder gives a type. -/
def written (book : TypeId → Plan) (i : TypeId) : Descriptor := first i (book i).outcome

def Lists (r : Registry) (i : TypeId) : Prop := ∃ d, r.lookup i = some d

/-- Every descriptor of the table is as the book has it, and so are the ones it needed. -/
structure Follows (book : TypeId → Plan) (r : Registry) : Prop where
  forms : ∀ i d, r.lookup i = some d → d.form = written book i
  closed : ∀ i, r.Lists i → ∀ j ∈ (book i).needs, r.Lists j

/-- From `r` to `r'` the types `needs` were added, as far as they were not there before. -/
def Adds (r : Registry) (needs : List TypeId) (r' : Registry) : Prop :=
  ∀ j, r'.Lists j ↔ r.Lists j ∨ j ∈ needs

theorem Adds.trans {r' r'' : Registry} {needs needs' : List TypeId} (h : r.Adds needs r')
    (h' : r'.Adds needs' r'') : r.Adds (needs ++ needs') r'' := fun j => by
  rw [h' j, h j, List.mem_append, or_assoc]

theorem lists_bind {draft : Draft} {base : TypeHandle} (h : r.lookup i = none) (j : TypeId) :
    (r.bind i draft base).2.Lists j ↔ r.Lists j ∨ j = i := by
  simp only [Lists, lookup_bind h]
  split
  · next hj => simp [hj]
  · next hj => simp [hj]

/-- The end of a build after which the type is still not listed. -/
theorem Follows.bind {o : Draft × TypeHandle} (h : r.Follows book)
    (ho : (o.1, o.2.map form) = (book i).outcome) (hneeds : ∀ j ∈ (book i).needs, r.Lists j)
    (hi : r.lookup i = none) :
    (r.bind i o.1 o.2).1.form = written book i ∧ (r.bind i o.1 o.2).2.Follows book := by
  have hform : (r.bind i o.1 o.2).1.form = written book i := by
    rw [bind_of_none hi, Descriptor.form_make, ho, written]
  refine ⟨hform, ⟨fun j d hj => ?_, fun j hj k hk => ?_⟩⟩
  · rw [lookup_bind hi] at hj
    split at hj
    · next heq =>
      cases hj
      rw [heq, hform]
    · exact h.forms j d hj
  · rw [lists_bind hi] at hj ⊢
    rcases hj with hj | rfl
    · exact .inl (h.closed j hj k hk)
    · exact .inl (hneeds k hk)

/-- What a builder that keeps to the book does in a table that follows it. -/
structure Fulfils (book : TypeId → Plan) (p : Plan) (r : Registry)
    (o : (Draft × TypeHandle) × Registry) : Prop where
  outcome : (o.1.1, o.1.2.map form) = p.outcome
  follows : o.2.Follows book
  adds : r.Adds p.needs o.2

/-- A request for a type with the book's builder. -/
theorem Follows.settle (h : r.Follows book)
    (hbuild : r.lookup i = none → Fulfils book (book i) r ((book i).run r)) :
    (r.settle i (book i).run).1.form = written book i ∧
      (r.settle i (book i).run).2.Follows book ∧
      r.Adds ((book i).needs ++ [i]) (r.settle i (book i).run).2 := by
  cases hi : r.lookup i with
  | some d =>
    rw [settle_of_some hi]
    refine ⟨h.forms i d hi, h, fun j => ⟨.inl, ?_⟩⟩
    rw [List.mem_append, List.mem_singleton]
    rintro (hj | hj | rfl)
    · exact hj
    · exact h.closed i ⟨d, hi⟩ j hj
    · exact ⟨d, hi⟩
  | none =>
    have hrun := hbuild hi
    rw [settle_of_none hi]
    generalize (book i).run r = o at hrun
    obtain ⟨o, r'⟩ := o
    have hneeds : ∀ j ∈ (book i).needs, r'.Lists j := fun j hj => (hrun.adds j).mpr (.inr hj)
    cases hnow : r'.lookup i with
    | some d =>
      -- The builder has listed its own type; what it listed is what the book has.
      show (r'.bind i o.1 o.2).1.form = _ ∧ _
      rw [Registry.bind, hnow]
      refine ⟨hrun.follows.forms i d hnow, hrun.follows, fun j => ?_⟩
      rw [hrun.adds j, List.mem_append, List.mem_singleton, ← or_assoc, ← hrun.adds j]
      exact ⟨.inl, fun hj => hj.elim id fun heq => ⟨d, heq ▸ hnow⟩⟩
    | none =>
      obtain ⟨hform, hfollows⟩ := hrun.follows.bind hrun.outcome hneeds hnow
      refine ⟨hform, hfollows, fun j => ?_⟩
      rw [lists_bind hnow, hrun.adds j, List.mem_append, List.mem_singleton, or_assoc]

/-- By induction on how the builder keeps to the book. -/
theorem Follows.run {p p' : Plan} (hp : p.Keeps book p') (h : r.Follows book) :
    Fulfils book p' r (p.run r) := by
  induction hp generalizing r with
  | finish draft base base' same =>
    exact ⟨by rw [Plan.run, Plan.outcome, same], h, fun j => by simp [Plan.needs, Plan.run]⟩
  | request i rest rest' other alike ihother ihalike =>
    obtain ⟨hform, hfollows, hadds⟩ := h.settle (i := i) fun _ => ihother h
    have hrest := ihalike (r.settle i (book i).run).1 (first i (book i).outcome)
      (by rw [hform, Plan.form_first_outcome, written]) hfollows
    refine ⟨hrest.outcome, hrest.follows, ?_⟩
    have hall := hadds.trans hrest.adds
    rwa [List.append_assoc, List.singleton_append] at hall

/-- Every request comes with the book's builder, and that builder keeps to the book. -/
def Kept (book : TypeId → Plan) (qs : List (TypeId × Plan)) : Prop :=
  ∀ q ∈ qs, q.2 = book q.1 ∧ (book q.1).Keeps book (book q.1)

theorem Follows.serve {qs : List (TypeId × Plan)} (hq : Kept book qs) (h : r.Follows book) :
    (r.serve qs).Follows book ∧
      r.Adds (qs.flatMap fun q => (book q.1).needs ++ [q.1]) (r.serve qs) := by
  induction qs generalizing r with
  | nil => exact ⟨h, fun j => by simp [Registry.serve]⟩
  | cons q qs ih =>
    obtain ⟨⟨hplan, hkeeps⟩, hrest⟩ := List.forall_mem_cons.mp hq
    obtain ⟨i, p⟩ := q
    obtain rfl : p = book i := hplan
    obtain ⟨-, hfollows, hadds⟩ := h.settle (i := i) fun _ => h.run hkeeps
    obtain ⟨hend, hothers⟩ := ih hrest hfollows
    exact ⟨hend, hadds.trans hothers⟩

theorem follows_empty (book : TypeId → Plan) : empty.Follows book where
  forms _ _ h := nomatch h
  closed _ h := nomatch h

end Registry

theorem Plan.Keeps.derive {book : TypeId → Plan} {i : TypeId} {other : Plan}
    (hbook : book i = other) (h : other.Keeps book other) (draft : Draft) :
    (Plan.request i other fun d => .finish draft (some d)).Keeps book
      (.request i other fun d => .finish draft (some d)) := by
  subst hbook
  exact .request i _ _ h fun _ _ hform => .finish draft _ _ (congrArg some hform)

namespace Registry

end Registry

end CountedObjects
