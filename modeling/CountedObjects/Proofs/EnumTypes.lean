import CountedObjects.EnumValue
import CountedObjects.Proofs.RequestOrder

/-! Descriptors of enumerations. Where each type has one builder, the descriptor of an enumeration
lists its members under the root of enumerations, whatever was requested before. -/
namespace CountedObjects

theorem Descriptor.draft_form (d : Descriptor) : d.form.draft = d.draft := by
  cases d <;> rfl

theorem Descriptor.base?_form (d : Descriptor) : d.form.base? = d.base?.map (·.map form) := by
  cases d <;> rfl

theorem EnumValue.parse_of_ordinal? {d : Descriptor} {text : String} {n : Int32}
    (henum : d.isEnum = true) (hn : d.ordinal? text = some n) :
    parse (some d) text = .ok (.enumValue d n) := by
  simp [parse, demandEnum, TypeHandle.get, henum, hn, pure, Except.pure, bind, Except.bind]

/-- The descriptor of the enumeration, as it is when no other type has the same entry. -/
structure Enumeration.Described (e : Enumeration) (d : Descriptor) : Prop where
  isEnum : d.isEnum = true
  members : d.members = e.members
  base : ∃ root, d.base? = some (some root) ∧ root.fullName = "System.Enum"
  parses : ∀ m ∈ e.members, ∃ n, (m.1, n) ∈ e.members ∧
    EnumValue.parse (some d) m.1 = .ok (.enumValue d n)

namespace Registry

variable {book : TypeId → Plan} {r : Registry} {e : Enumeration} {d : Descriptor}

/-- A book with the builders of an enumeration and of the types under it. -/
structure Writes (book : TypeId → Plan) (e : Enumeration) : Prop where
  own : book e.id = e.recipe.plan none
  root : book .enumRoot = enumRootRecipe.plan none
  object : book .object = objectRecipe.plan none

theorem Writes.keeps (h : Writes book e) : (book e.id).Keeps book (book e.id) := by
  have hobject : (objectRecipe.plan none).Keeps book (objectRecipe.plan none) :=
    .finish _ _ _ rfl
  have hroot : (enumRootRecipe.plan none).Keeps book (enumRootRecipe.plan none) :=
    .derive h.object hobject _
  rw [h.own]
  exact .derive h.root hroot e.draft

theorem described_of_form (h : Writes book e) (hd : d.form = written book e.id) :
    e.Described d := by
  rw [written, h.own] at hd
  have hdraft : d.draft = e.draft := by rw [← d.draft_form, hd]; rfl
  have hmembers : d.members = e.members := by rw [Descriptor.members, hdraft]; rfl
  have henum : d.isEnum = true := by rw [Descriptor.isEnum, hdraft]; rfl
  refine ⟨henum, hmembers, ?_, fun m hm => ?_⟩
  · have hbase := d.base?_form
    rw [hd] at hbase
    obtain ⟨base, hbase, hroot⟩ := Option.map_eq_some_iff.mp hbase.symm
    obtain ⟨root, rfl, hform⟩ := Option.map_eq_some_iff.mp hroot
    refine ⟨root, hbase, ?_⟩
    rw [Descriptor.fullName, ← root.draft_form, hform]
    rfl
  · have hsome : (e.members.find? (·.1 == m.1)).isSome := List.find?_isSome.mpr ⟨m, hm, by simp⟩
    obtain ⟨m', hfind⟩ := Option.isSome_iff_exists.mp hsome
    have hname : m'.1 = m.1 := by simpa using List.find?_some hfind
    refine ⟨m'.2, hname ▸ List.mem_of_find?_eq_some hfind, ?_⟩
    refine EnumValue.parse_of_ordinal? henum ?_
    rw [Descriptor.ordinal?, hmembers, hfind]
    rfl

/-- After requests that keep to the book, an enumeration's descriptor is the enumeration's. -/
theorem serve_enumType {qs : List (TypeId × Plan)} (hq : Kept book qs) (h : Writes book e) :
    e.Described ((empty.serve qs).enumType e).1 := by
  have hfollows := ((follows_empty book).serve hq).1
  refine described_of_form h ?_
  rw [enumType, request_eq_settle, ← h.own]
  exact (hfollows.settle fun _ => hfollows.run h.keeps).1

/-- An enumeration whose entry is that of a kind of objects too gets what was requested first. -/
theorem enumType_after_typeOf (r : Registry) {k : Kind} (h : e.id = .kind k) :
    ((r.typeOf k).2.enumType e).1 = (r.typeOf k).1 := by
  have hlisted : (r.typeOf k).2.lookup e.id = some (r.typeOf k).1 := by
    rw [h]
    exact lookup_settle r (.kind k) (k.recipe.run none)
  rw [enumType, request, settle_of_some hlisted]

theorem not_described_after_typeOf :
    ¬ (Enumeration.mk (.kind .plain) "" "E" [("A", 0)]).Described
      ((empty.typeOf .plain).2.enumType ⟨.kind .plain, "", "E", [("A", 0)]⟩).1 := by
  intro h
  have henum := h.isEnum
  rw [enumType_after_typeOf empty rfl] at henum
  cases henum

end Registry

end CountedObjects
