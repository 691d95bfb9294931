import CountedObjects.Proofs.Session.Fitting

/-! Elements become objects and objects are converted to elements. The two undo each other up to
null, which a null handle and a missing element both become. -/
namespace CountedObjects

variable {s t : Store} {r : Realm} {os : List Handle} {o : Handle} {k : Kind} {d : Descriptor}

namespace Store

/-- Null, or an object that has a descriptor. -/
def Typed (s : Store) (o : Handle) : Prop :=
  o.isNull = true ∨ ∃ d, s.reportedType o = .ok (some d)

/-- Both handles are null, or they are those of objects with one descriptor and one value. -/
structure Resembles (s : Store) (o : Handle) (t : Store) (o' : Handle) : Prop where
  isNull : o'.isNull = o.isNull
  type : t.reportedType o' = s.reportedType o
  body : t.body? o' = s.body? o

/-- Only descriptors have a kind without a state. -/
theorem isKind_eq_any (hk : k ≠ .type) : s.isKind k o = (s.body? o).any fun b => b.kind == k := by
  cases o with
  | null => rfl
  | type d => exact beq_false_of_ne hk.symm
  | object id =>
    cases hc : s.find? id with
    | none => simp [isKind, pointee?, body?, hc]
    | some c => simp [isKind, pointee?, body?, hc, Pointee.kind]

theorem Typed.exists_reportedType (h : s.Typed o) (hn : o.isNull = false) :
    ∃ d, s.reportedType o = .ok (some d) :=
  h.resolve_left (by rw [hn]; exact Bool.false_ne_true)

theorem reportedType_of_find? {id : Nat} {c : Cell} (hc : s.find? id = some c) :
    s.reportedType (.object id) = .ok c.reported := by
  rw [reportedType, pointee?, hc]
  rfl

theorem mismatch_of_reportedType {α : Type} (hd : s.reportedType o = .ok (some d))
    (expected : String) :
    (s.mismatch expected o : Result α) = .error (.object (.invalidCast expected d.fullName)) := by
  rw [mismatch, typeName, hd]
  rfl

/-- The message that an object is of another kind names the type that the object reports. -/
theorem mismatch_of_reportedType_none {α : Type} (h : s.reportedType o = .ok none)
    (expected : String) :
    (s.mismatch expected o : Result α) = .error (.abort .nullReference) := by
  rw [mismatch, typeName, h]
  rfl

end Store

theorem ScalarKind.wrap_of_kind (k : ScalarKind) {v : Scalar} (h : v.kind = k) :
    ∃ x, v = k.wrap x := by
  subst h
  cases v with
  | bool x | char x | int x | long x | double x => exact ⟨x, rfl⟩

theorem Body.eq_boxed {k : ScalarKind} {b : Body} (h : b.kind = .scalar k) :
    ∃ x, b = .boxed (k.wrap x) := by
  cases b with
  | boxed v =>
    obtain ⟨x, rfl⟩ := k.wrap_of_kind (Kind.scalar.inj h)
    exact ⟨x, rfl⟩
  | collection c => cases c <;> cases h
  | _ => cases h

theorem Body.eq_text {b : Body} (h : b.kind = .string) : ∃ x, b = .text x := by
  cases b with
  | text x => exact ⟨x, rfl⟩
  | collection c => cases c <;> cases h
  | _ => cases h

theorem Body.eq_enumValue {b : Body} (h : b.kind = .enumValue) : ∃ d n, b = .enumValue d n := by
  cases b with
  | enumValue d n => exact ⟨d, n, rfl⟩
  | collection c => cases c <;> cases h
  | _ => cases h

theorem Scalar.unwrap?_eq_none {k : ScalarKind} {v : Scalar} (h : v.kind ≠ k) :
    k.unwrap? v = none := by
  cases v <;> cases k <;> first | rfl | exact absurd rfl h

namespace ElementType

/-- Whether the elements are handles, each of which may be optional. -/
def isHandle : ElementType → Bool
  | scalar _ | string => false
  | object | key | pointer _ => true
  | option t => t.isHandle

/-- How the conversion of an object fails. -/
inductive Refuses (s : Store) (t : ElementType) (o : Handle) : Fault → Prop
  | null (boxes : t.boxes = true) (missing : o.isNull = true) :
    Refuses s t o (.object .nullReference)
  | kind {k : Kind} {d : Descriptor} (present : o.isNull = false) (required : t.required? = some k)
    (other : s.isKind k o = false) (type : s.reportedType o = .ok (some d)) :
    Refuses s t o (.object (.invalidCast k.fullName d.fullName))

/-- What the conversions to objects and from objects are to each other, as things stand. -/
structure Converts (t : ElementType) (r : Realm) : Prop where
  /-- An element is recovered from the object that it becomes. -/
  back : ∀ v, r.store.Admits t v →
    t.ofObject (r.toObject t v).2.store (r.toObject t v).1 = .ok (t.recovered v (r.toObject t v).1)
  /-- A handle that is converted becomes the handle that it was. -/
  same : ∀ o v, t.isHandle = true → t.ofObject r.store o = .ok v → (r.toObject t v).1 = o
  /-- A value that is unboxed is boxed as it was. -/
  alike : ∀ o v, t.isHandle = false → t.ofObject r.store o = .ok v →
    r.store.Resembles o (r.toObject t v).2.store (r.toObject t v).1
  /-- The conversion fails for null and for objects of another kind, and for no others. -/
  fails : ∀ o e, r.store.Typed o → (t.ofObject r.store o = .error e ↔ t.Refuses r.store o e)

/-! Failures. -/

theorem ofObject_of_isNull (t : ElementType) (ht : t.boxes = true) (hn : o.isNull = true) :
    t.ofObject s o = .error (.object .nullReference) := by
  cases t with
  | scalar k => exact if_pos hn
  | string => exact if_pos hn
  | object | key | pointer | option => cases ht

theorem exists_ofObject_of_isNull (t : ElementType) (ht : t.boxes = false) (hn : o.isNull = true) :
    ∃ v, t.ofObject s o = .ok v := by
  cases t with
  | scalar | string => cases ht
  | object | key => exact ⟨o, rfl⟩
  | pointer k => exact ⟨o, if_pos (Bool.or_eq_true_iff.mpr (.inl hn))⟩
  | option t => exact ⟨none, if_pos hn⟩

theorem exists_of_isKind_scalar {k : ScalarKind} (h : s.isKind (.scalar k) o = true) :
    ∃ v, (scalar k).Represents s v o := by
  rw [Store.isKind_eq_any (by simp), Option.any_eq_true] at h
  obtain ⟨b, hb, hk⟩ := h
  obtain ⟨x, rfl⟩ := Body.eq_boxed (eq_of_beq hk)
  exact ⟨x, hb⟩

theorem exists_of_isKind_string (h : s.isKind .string o = true) :
    ∃ v, string.Represents s v o := by
  rw [Store.isKind_eq_any (by simp), Option.any_eq_true] at h
  obtain ⟨b, hb, hk⟩ := h
  obtain ⟨x, rfl⟩ := Body.eq_text (eq_of_beq hk)
  exact ⟨x, hb⟩

theorem unbox_of_other_kind {k : ScalarKind} (hn : o.isNull = false)
    (hk : s.isKind (.scalar k) o = false) :
    s.unbox k o = s.mismatch (Kind.scalar k).fullName o := by
  rw [Store.isKind_eq_any (by simp)] at hk
  rw [Store.unbox, hn]
  cases hb : s.body? o with
  | none => rfl
  | some b =>
    cases b with
    | boxed v =>
      have hv : v.kind ≠ k := by simpa [hb, Body.kind] using hk
      simp only [Scalar.unwrap?_eq_none hv]
      rfl
    | _ => rfl

theorem unboxText_of_other_kind (hn : o.isNull = false) (hk : s.isKind .string o = false) :
    s.unboxText o = s.mismatch Kind.string.fullName o := by
  rw [Store.isKind_eq_any (by simp)] at hk
  rw [Store.unboxText, hn]
  cases hb : s.body? o with
  | none => rfl
  | some b =>
    cases b with
    | text v => simp [hb, Body.kind] at hk
    | _ => rfl

theorem represents_of_ofObject (t : ElementType) {v : t.Value} (ht : t.boxes = true)
    (hv : t.ofObject s o = .ok v) : t.Represents s v o := by
  have hn : o.isNull = false := by
    cases hn : o.isNull with
    | false => rfl
    | true => cases (t.ofObject_of_isNull ht hn).symm.trans hv
  cases t with
  | scalar k =>
    cases hk : s.isKind (.scalar k) o with
    | false => exact absurd ((unbox_of_other_kind hn hk).symm.trans hv) Store.mismatch_ne_ok
    | true =>
      obtain ⟨w, hw⟩ := exists_of_isKind_scalar hk
      cases (ofObject_of_boxes (.scalar k) rfl hw).2.symm.trans hv
      exact hw
  | string =>
    cases hk : s.isKind .string o with
    | false => exact absurd ((unboxText_of_other_kind hn hk).symm.trans hv) Store.mismatch_ne_ok
    | true =>
      obtain ⟨w, hw⟩ := exists_of_isKind_string hk
      cases (ofObject_of_boxes .string rfl hw).2.symm.trans hv
      exact hw
  | object | key | pointer | option => cases ht

/-- An optional element is refused as one that may not be missing. -/
theorem ofObject_of_other_kind (hn : o.isNull = false) (hk : s.isKind k o = false)
    (hd : s.reportedType o = .ok (some d)) : (t : ElementType) → t.required? = some k →
    t.ofObject s o = .error (.object (.invalidCast k.fullName d.fullName))
  | scalar _, hr => by
    cases hr
    rw [ofObject, unbox_of_other_kind hn hk, Store.mismatch_of_reportedType hd]
  | string, hr => by
    cases hr
    rw [ofObject, unboxText_of_other_kind hn hk, Store.mismatch_of_reportedType hd]
  | pointer _, hr => by
    cases hr
    rw [ofObject, Store.tryCast, hn, hk, Store.mismatch_of_reportedType hd]
    rfl
  | option t, hr => by
    simp only [ofObject, hn, ofObject_of_other_kind hn hk hd t hr]
    rfl

theorem exists_ofObject (hn : o.isNull = false) : (t : ElementType) →
    (∀ k, t.required? = some k → s.isKind k o = true) → ∃ v, t.ofObject s o = .ok v
  | scalar k, hk => by
    obtain ⟨v, hv⟩ := exists_of_isKind_scalar (hk _ rfl)
    exact ⟨v, (ofObject_of_boxes (.scalar k) rfl hv).2⟩
  | string, hk => by
    obtain ⟨v, hv⟩ := exists_of_isKind_string (hk _ rfl)
    exact ⟨v, (ofObject_of_boxes .string rfl hv).2⟩
  | object, _ | key, _ => ⟨o, rfl⟩
  | pointer k, hk => ⟨o, if_pos (Bool.or_eq_true_iff.mpr (.inr (hk k rfl)))⟩
  | option t, hk => by
    obtain ⟨v, hv⟩ := exists_ofObject hn t hk
    refine ⟨some v, ?_⟩
    simp only [ofObject, hn, hv]
    rfl

theorem Refuses.ofObject_eq {t : ElementType} {e : Fault} (h : t.Refuses s o e) :
    t.ofObject s o = .error e := by
  cases h with
  | null boxes missing => exact t.ofObject_of_isNull boxes missing
  | kind present required other type => exact ofObject_of_other_kind present other type t required

/-- An object is converted or refused. -/
theorem ofObject_or_refuses (t : ElementType) (ho : s.Typed o) :
    (∃ v, t.ofObject s o = .ok v) ∨ ∃ e, t.Refuses s o e := by
  cases hn : o.isNull with
  | true =>
    cases ht : t.boxes with
    | true => exact .inr ⟨_, .null ht hn⟩
    | false => exact .inl (t.exists_ofObject_of_isNull ht hn)
  | false =>
    obtain ⟨d, hd⟩ := ho.exists_reportedType hn
    by_cases hk : ∀ k, t.required? = some k → s.isKind k o = true
    · exact .inl (exists_ofObject hn t hk)
    · push Not at hk
      obtain ⟨k, hr, hk⟩ := hk
      exact .inr ⟨_, .kind hn hr (Bool.eq_false_iff.mpr hk) hd⟩

theorem ofObject_eq_error_iff {t : ElementType} {e : Fault} (ho : s.Typed o) :
    t.ofObject s o = .error e ↔ t.Refuses s o e := by
  refine ⟨fun he => ?_, Refuses.ofObject_eq⟩
  rcases t.ofObject_or_refuses ho with ⟨v, hv⟩ | ⟨e', he'⟩
  · cases hv.symm.trans he
  · cases he'.ofObject_eq.symm.trans he
    exact he'

/-! From elements to objects and back. -/

theorem ofObject_toObject (h : r.store.Sound os) (t : ElementType) {v : t.Value}
    (hv : r.store.Admits t v) :
    t.ofObject (r.toObject t v).2.store (r.toObject t v).1 =
      .ok (t.recovered v (r.toObject t v).1) :=
  t.ofObject_eq_recovered v ((hv.grows (r.toObject_gives h t v hv.safe).grows).fits)
    (t.represents_toObject r v)

-- A null handle that may be missing is recovered as missing.
example : (option object).recovered (some .null) .null = none := rfl

/-! From objects to elements and back. -/

theorem toObject_of_isHandle : (t : ElementType) → (v : t.Value) → t.isHandle = true →
    t.ofObject r.store o = .ok v → (r.toObject t v).1 = o
  | object, _, _, hv | key, _, _, hv => (Except.ok.inj hv).symm
  | pointer _, _, _, hv => Store.eq_of_tryCast hv
  | option t, none, _, hv => by
    obtain rfl := eq_null_of_ofObject_none hv
    rfl
  | option t, some v, ht, hv => toObject_of_isHandle t v ht (ofObject_of_option hv)

end ElementType

/-- A new object has the descriptor that is listed for its kind, as the object it is like has. -/
theorem Realm.Described.resembles_make (h : r.Described) {b : Body} (hb : r.store.body? o = some b)
    (hr : ∀ c : Cell, c.body = b → c.reported = some c.type) :
    r.store.Resembles o (r.make b).2.store (r.make b).1 := by
  cases o with
  | null | type => cases hb
  | object id =>
    obtain ⟨c, hc, hcb⟩ := Option.map_eq_some_iff.mp hb
    have hlisted : r.registry.lookup (.kind b.kind) = some c.type := hcb ▸ h.object id c hc
    have htype := Registry.typeOf_of_lookup hlisted
    have hcopy : (⟨c.type, 1, b⟩ : Cell).reported = some c.type := hr _ rfl
    have hnew : (r.make b).2.store.reportedType (r.make b).1 = .ok (some c.type) := by
      simp [make, htype, Store.reportedType, Store.pointee?, Store.find?_alloc, hcopy]
    have hold : r.store.reportedType (.object id) = .ok (some c.type) :=
      (Store.reportedType_of_find? hc).trans (congrArg _ (hr c hcb))
    exact ⟨rfl, hnew.trans hold.symm, (r.body?_make b).trans hb.symm⟩

namespace ElementType

theorem resembles_toObject (h : r.Described) : (t : ElementType) → (v : t.Value) →
    t.isHandle = false → t.ofObject r.store o = .ok v →
      r.store.Resembles o (r.toObject t v).2.store (r.toObject t v).1
  | scalar k, _, _, hv =>
    h.resembles_make (represents_of_ofObject (.scalar k) rfl hv) fun c hc => by
      rw [Cell.reported, hc]
  | string, _, _, hv =>
    h.resembles_make (represents_of_ofObject .string rfl hv) fun c hc => by
      rw [Cell.reported, hc]
  | option t, none, _, hv => by
    obtain rfl := eq_null_of_ofObject_none hv
    exact ⟨rfl, rfl, rfl⟩
  | option t, some v, ht, hv => resembles_toObject h t v ht (ofObject_of_option hv)

theorem converts (hs : r.store.Sound os) (hd : r.Described) (t : ElementType) : t.Converts r where
  back _ hv := t.ofObject_toObject hs hv
  same _ v ht hv := t.toObject_of_isHandle v ht hv
  alike _ v ht hv := t.resembles_toObject hd v ht hv
  fails _ _ ho := ofObject_eq_error_iff ho

end ElementType

/-- After any steps, objects are converted to the elements that became them, and elements to
objects like those that they were recovered from. -/
theorem Session.run_converts (steps : List Step) (t : ElementType) :
    t.Converts (start.advanceAll steps).2.realm :=
  t.converts (run_settled steps).sound (run_described steps)

end CountedObjects
