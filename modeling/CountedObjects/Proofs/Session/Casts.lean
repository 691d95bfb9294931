import CountedObjects.Proofs.Session.Conversions
import CountedObjects.Proofs.Session.Ownership
import CountedObjects.Proofs.Session.Census

/-! Tests of an object's kind and casts to it. All of them give one answer, and a handle that was
cast and is kept is one more reference to the same object. -/
namespace CountedObjects

/-- What the tests and the casts to a kind answer for a handle. -/
structure Kind.Downcasts (k : Kind) (r : Realm) (o : Handle) : Prop where
  isSome_downcast? : (r.store.downcast? k o).isSome = r.store.isKind k o
  isKind_iff : r.store.isKind k o = true ↔ o.isNull = false ∧ ∃ c, r.store.tryCast k o = .ok c
  unique : ∀ k', r.store.isKind k o = true → r.store.isKind k' o = true → k = k'
  null : o.isNull = true → r.store.tryCast k o = .ok .null
  same : ∀ c, r.store.tryCast k o = .ok c → c = o
  upcast : ∀ c, r.store.tryCast k o = .ok c → (r.toObject (.pointer k) c).1 = o
  refused : ∀ e, r.store.tryCast k o = .error e ↔ o.isNull = false ∧ r.store.isKind k o = false ∧
    ∃ d, r.store.reportedType o = .ok (some d) ∧ e = .object (.invalidCast k.fullName d.fullName)
  cast_ok : ∀ c, r.store.cast k o = .ok c ↔ r.store.tryCast k o = .ok c
  /-- The one cast aborts with the error that the other one gives. -/
  cast_error : ∀ e, r.store.cast k o = .error e ↔
    ∃ x, e = .abort x ∧ r.store.tryCast k o = .error (.object x)
  ofObject : (ElementType.pointer k).ofObject r.store o = r.store.tryCast k o
  unbox_ok : ∀ p, k = .scalar p →
    ((∃ v, r.store.unbox p o = .ok v) ↔ r.store.isKind k o = true)
  /-- Null, which can be cast to any kind, cannot be unboxed. -/
  unbox_null : ∀ p, k = .scalar p → o.isNull = true →
    r.store.unbox p o = .error (.object .nullReference)
  unbox_error : ∀ p, k = .scalar p → o.isNull = false → ∀ e,
    r.store.unbox p o = .error e ↔ r.store.tryCast k o = .error e
  ofObject_scalar : ∀ p, k = .scalar p →
    (ElementType.scalar p).ofObject r.store o = r.store.unbox p o

namespace Store

variable {s : Store} {o c : Handle} {k k' : Kind} {p : ScalarKind} {e : Fault}

theorem isKind_eq_true_iff : s.isKind k o = true ↔ ∃ x, s.pointee? o = some x ∧ x.kind = k := by
  unfold isKind
  cases s.pointee? o with
  | none => simp
  | some x => simp

theorem isKind_unique (h : s.isKind k o = true) (h' : s.isKind k' o = true) : k = k' := by
  obtain ⟨x, hx, rfl⟩ := isKind_eq_true_iff.mp h
  obtain ⟨y, hy, rfl⟩ := isKind_eq_true_iff.mp h'
  rw [Option.some.inj (hx.symm.trans hy)]

theorem isNull_of_isKind (h : s.isKind k o = true) : o.isNull = false := by
  obtain ⟨x, hx, -⟩ := isKind_eq_true_iff.mp h
  cases o with
  | null => cases hx
  | type | object => rfl

theorem isSome_downcast? : (s.downcast? k o).isSome = s.isKind k o := by
  unfold downcast? isKind
  cases s.pointee? o with
  | none => rfl
  | some x => cases hk : x.kind == k <;> simp [Option.filter, hk]

theorem tryCast_of_isNull (h : o.isNull = true) : s.tryCast k o = .ok o :=
  if_pos (Bool.or_eq_true_iff.mpr (.inl h))

theorem tryCast_of_isKind (h : s.isKind k o = true) : s.tryCast k o = .ok o :=
  if_pos (Bool.or_eq_true_iff.mpr (.inr h))

theorem tryCast_of_other_kind (hn : o.isNull = false) (hk : s.isKind k o = false) :
    s.tryCast k o = s.mismatch k.fullName o :=
  if_neg (by rw [hn, hk]; exact Bool.false_ne_true)

theorem isKind_iff_tryCast :
    s.isKind k o = true ↔ o.isNull = false ∧ ∃ c, s.tryCast k o = .ok c := by
  constructor
  · exact fun hk => ⟨isNull_of_isKind hk, o, tryCast_of_isKind hk⟩
  · rintro ⟨hn, c, hc⟩
    by_contra hk
    rw [tryCast_of_other_kind hn (Bool.eq_false_iff.mpr hk)] at hc
    exact mismatch_ne_ok hc

/-- An object that has a descriptor is refused under the name of its type. -/
theorem Typed.mismatch_eq_error_iff {α : Type} {expected : String} (h : s.Typed o)
    (hn : o.isNull = false) :
    (s.mismatch expected o : Result α) = .error e ↔
      ∃ d, s.reportedType o = .ok (some d) ∧ e = .object (.invalidCast expected d.fullName) := by
  obtain ⟨d, hd⟩ := h.exists_reportedType hn
  rw [mismatch_of_reportedType hd, hd]
  constructor
  · exact fun he => ⟨d, rfl, (Except.error.inj he).symm⟩
  · rintro ⟨d', hd', rfl⟩
    cases hd'
    rfl

theorem Typed.tryCast_eq_error_iff (h : s.Typed o) :
    s.tryCast k o = .error e ↔ o.isNull = false ∧ s.isKind k o = false ∧
      ∃ d, s.reportedType o = .ok (some d) ∧ e = .object (.invalidCast k.fullName d.fullName) := by
  cases hn : o.isNull with
  | true => simp [tryCast_of_isNull hn]
  | false =>
    cases hk : s.isKind k o with
    | true => simp [tryCast_of_isKind hk]
    | false =>
      rw [tryCast_of_other_kind hn hk, h.mismatch_eq_error_iff hn]
      simp only [true_and]

theorem Typed.cast_eq_error_iff (h : s.Typed o) :
    s.cast k o = .error e ↔ ∃ x, e = .abort x ∧ s.tryCast k o = .error (.object x) := by
  unfold cast
  cases hc : s.tryCast k o with
  | ok c => simp [Result.insist]
  | error e' =>
    obtain ⟨-, -, d, -, rfl⟩ := h.tryCast_eq_error_iff.mp hc
    simp [Result.insist, eq_comm]

theorem cast_eq_ok_iff : s.cast k o = .ok c ↔ s.tryCast k o = .ok c := by
  unfold cast
  cases s.tryCast k o with
  | ok c => rfl
  | error e => cases e <;> simp [Result.insist]

theorem isKind_iff_unbox : (∃ v, s.unbox p o = .ok v) ↔ s.isKind (.scalar p) o = true := by
  constructor
  · rintro ⟨v, hv⟩
    by_contra hk
    cases hn : o.isNull with
    | true => cases (ElementType.ofObject_of_isNull (.scalar p) rfl hn).symm.trans hv
    | false =>
      rw [ElementType.unbox_of_other_kind hn (Bool.eq_false_iff.mpr hk)] at hv
      exact mismatch_ne_ok hv
  · intro hk
    obtain ⟨v, hv⟩ := ElementType.exists_of_isKind_scalar hk
    exact ⟨v, (ElementType.ofObject_of_boxes (.scalar p) rfl hv).2⟩

/-- What is not null is unboxed with the errors of the cast. -/
theorem Typed.unbox_eq_error_iff (h : s.Typed o) (hn : o.isNull = false) :
    s.unbox p o = .error e ↔ s.tryCast (.scalar p) o = .error e := by
  cases hk : s.isKind (.scalar p) o with
  | true =>
    obtain ⟨v, hv⟩ := isKind_iff_unbox.mpr hk
    rw [hv, tryCast_of_isKind hk]
    exact iff_of_false (fun he => nomatch he) (fun he => nomatch he)
  | false =>
    rw [ElementType.unbox_of_other_kind hn hk, tryCast_of_other_kind hn hk,
      h.mismatch_eq_error_iff hn, h.mismatch_eq_error_iff hn]

end Store

theorem Kind.downcasts (k : Kind) {r : Realm} {o : Handle} (h : r.store.Typed o) :
    k.Downcasts r o where
  isSome_downcast? := Store.isSome_downcast?
  isKind_iff := Store.isKind_iff_tryCast
  unique _ hk hk' := Store.isKind_unique hk hk'
  null hn := by
    obtain rfl := Handle.eq_null_of_isNull hn
    exact Store.tryCast_of_isNull rfl
  same _ hc := Store.eq_of_tryCast hc
  upcast _ hc := Store.eq_of_tryCast hc
  refused _ := h.tryCast_eq_error_iff
  cast_ok _ := Store.cast_eq_ok_iff
  cast_error _ := h.cast_eq_error_iff
  ofObject := rfl
  unbox_ok := by
    rintro p rfl
    exact Store.isKind_iff_unbox
  unbox_null _ _ hn := if_pos hn
  unbox_error := by
    rintro p rfl hn e
    exact h.unbox_eq_error_iff hn
  ofObject_scalar _ _ := rfl

namespace Session

variable {s t : Session} {x : String} {o : Handle}

/-- Between `s` and `t` the name `x` was pointed at an object, to which there is one more reference
from then on. No other name and no other count of references changed. -/
structure Gains (s t : Session) (x : String) (o : Handle) : Prop where
  target : t.handle x = o
  others : ∀ y, y ≠ x → t.handle y = s.handle y
  refs : ∀ a, t.refs a = s.refs a + if a = o ∧ o ≠ .null then 1 else 0

/-- How handles are cast in a state. -/
structure Casts (s : Session) (k : Kind) : Prop where
  agree : ∀ o, s.store.Typed o → k.Downcasts s.realm o
  /-- To keep what was cast under a name that is null. -/
  keeps : ∀ o c x, o = .null ∨ o ∈ s.owners → s.store.tryCast k o = .ok c → s.handle x = .null →
    s.Gains (s.setHandle x c) x o
  /-- The step that does so. -/
  step : ∀ h c x v, s.store.tryCast k (s.handle h) = .ok c → s.handle x = .null →
    s.store.view c = .ok v →
      (s.advance (.handle (.tryCast h k (some x)))).1.outcome = .ok (.object v) ∧
      s.Gains (s.advance (.handle (.tryCast h k (some x)))).2 x (s.handle h)

theorem setHandle_of_null (hx : s.handle x = .null) (o : Handle) :
    s.setHandle x o =
      { s with realm := (s.realm.share o).2, handles := Named.set x o s.handles } := by
  simp [setHandle, hx, release, mapRealm, Realm.releaseAll, Store.releaseAll]

theorem count_roots_setHandle {a : Handle} (hx : s.handle x = .null) (ha : a ≠ .null) :
    (s.setHandle x o).roots.count a = s.roots.count a + [o].count a := by
  have hnull : [Handle.null].count a = 0 := by simp [ha.symm]
  have hsum := @Named.total_set _ (fun y => [y].count a) .null hnull x o s.handles
  have hold : (s.handles.lookup x).getD .null = .null := hx
  rw [hold, hnull, Nat.add_zero] at hsum
  rw [count_roots, count_roots, setHandle_of_null hx]
  simp only [hsum]
  omega

/-- To hold an object once more changes no object. -/
theorem map_body_cells_setHandle (hx : s.handle x = .null) :
    (s.setHandle x o).cells.map Cell.body = s.cells.map Cell.body := by
  have hbody : ∀ id, (s.setHandle x o).store.body? (.object id) = s.store.body? (.object id) := by
    intro id
    rw [setHandle_of_null hx]
    exact s.store.body?_attach o (.object id)
  have hmap : ∀ s : Session, s.cells.map Cell.body =
      (s.store.cells.toList.map (Option.map Cell.body)).filterMap id := by
    intro s
    rw [cells, List.map_filterMap, List.filterMap_map]
    rfl
  rw [hmap, hmap]
  refine filterMap_id_congr fun i => ?_
  rw [List.getElem?_map, List.getElem?_map, Option.join_map_eq_map_join,
    Option.join_map_eq_map_join, Array.getElem?_toList, Array.getElem?_toList]
  exact hbody i

/-- Whatever is read off the objects alone is as it was. -/
theorem flatMap_cells_setHandle {β : Type} (hx : s.handle x = .null) (f : Body → List β) :
    (s.setHandle x o).cells.flatMap (fun c => f c.body) = s.cells.flatMap fun c => f c.body := by
  have hmap := congrArg (·.flatMap f) (@map_body_cells_setHandle s x o hx)
  simpa only [List.flatMap_map] using hmap

theorem type_mem_descriptors {d : Descriptor} (h : Handle.type d ∈ s.owners) :
    d ∈ s.descriptors := by
  have hd : d ∈ s.roots.filterMap Handle.descriptor? ∨
      d ∈ s.cells.flatMap fun c => c.descriptors ++ c.body.owned.filterMap Handle.descriptor? := by
    rcases List.mem_append.mp h with hroot | hcell
    · exact .inl (List.mem_filterMap.mpr ⟨_, List.mem_append_left _ hroot, rfl⟩)
    · obtain ⟨c, hc, hm⟩ := List.mem_flatMap.mp hcell
      have hown : d ∈ c.body.owned.filterMap Handle.descriptor? :=
        List.mem_filterMap.mpr ⟨_, hm, rfl⟩
      exact .inr (List.mem_flatMap.mpr ⟨c, hc, List.mem_append_right _ hown⟩)
  simp only [descriptors, List.mem_append]
  exact .inl (hd.elim (fun h => .inl (.inr h)) .inr)

theorem count_descriptors_setHandle (hx : s.handle x = .null) (d : Descriptor) :
    (s.setHandle x o).descriptors.count d = s.descriptors.count d + [o].count (.type d) := by
  have hroots : ∀ hs : List Handle, (hs.filterMap Handle.descriptor?).count d =
      hs.count (.type d) := by
    intro hs
    rw [List.count_filterMap, List.count]
    refine List.countP_congr fun h _ => ?_
    cases h <;> simp [Handle.descriptor?]
  have hcells : (s.setHandle x o).cells.flatMap
      (fun c => c.descriptors ++ c.body.owned.filterMap Handle.descriptor?) =
      s.cells.flatMap fun c => c.descriptors ++ c.body.owned.filterMap Handle.descriptor? :=
    flatMap_cells_setHandle hx fun b =>
      (⟨s.store.metatype, 0, b⟩ : Cell).descriptors ++ b.owned.filterMap Handle.descriptor?
  have hkept : (s.setHandle x o).realm.registry = s.realm.registry ∧
      (s.setHandle x o).types = s.types ∧ (s.setHandle x o).activators = s.activators :=
    ⟨rfl, rfl, rfl⟩
  have hcount : (s.setHandle x o).roots.count (.type d) =
      s.roots.count (.type d) + [o].count (.type d) :=
    count_roots_setHandle hx Handle.noConfusion
  simp only [descriptors, List.count_append, hroots, hcount, hcells, hkept]
  omega

/-- Descriptors that are referred to already are those that were in use. -/
theorem descriptorRefs_setHandle (hx : s.handle x = .null) (ho : o = .null ∨ o ∈ s.owners)
    (d : Descriptor) :
    (s.setHandle x o).descriptorRefs d = s.descriptorRefs d + [o].count (.type d) := by
  -- One more handle to a descriptor that has an owner brings none into use, and so no base.
  have hmem : ∀ e, e ∈ (s.setHandle x o).descriptors ↔ e ∈ s.descriptors := by
    intro e
    rw [← List.count_pos_iff, ← List.count_pos_iff, count_descriptors_setHandle hx]
    constructor
    · intro hpos
      by_cases he : o = .type e
      · have hown := ho.resolve_left (by rw [he]; exact Handle.noConfusion)
        exact List.count_pos_iff.mpr (type_mem_descriptors (he ▸ hown))
      · rwa [List.count_singleton, if_neg (by simpa using he), Nat.add_zero] at hpos
    · exact fun hpos => Nat.lt_of_lt_of_le hpos (Nat.le_add_right ..)
  have hinUse : ∀ e, e ∈ (s.setHandle x o).inUse ↔ e ∈ s.inUse := by
    intro e
    simp only [mem_inUse, hmem]
  rw [descriptorRefs, descriptorRefs, count_descriptors_setHandle hx, countP_inUse_congr hinUse]
  omega

theorem Settled.refs_setHandle (hs : s.Settled) (hx : s.handle x = .null)
    (ho : o = .null ∨ o ∈ s.owners) (a : Handle) :
    (s.setHandle x o).refs a = s.refs a + if a = o ∧ o ≠ .null then 1 else 0 := by
  have hsingle : a ≠ .null → [o].count a = if a = o ∧ o ≠ .null then 1 else 0 := by
    intro ha
    rw [List.count_singleton]
    by_cases hao : a = o
    · rw [if_pos (by simp [hao]), if_pos ⟨hao, hao ▸ ha⟩]
    · rw [if_neg (by simpa using Ne.symm hao), if_neg fun h => hao h.1]
  cases a with
  | null =>
    have hne : ¬ (Handle.null = o ∧ o ≠ .null) := fun h => h.2 h.1.symm
    rw [if_neg hne, refs, refs]
  | type d =>
    rw [← hsingle Handle.noConfusion]
    exact descriptorRefs_setHandle hx ho d
  | object id =>
    rw [← hsingle Handle.noConfusion]
    have hsafe : s.store.Safe o := fun i hi =>
      hs.isLive_iff.mpr (hi ▸ ho.resolve_left (by rw [hi]; exact Handle.noConfusion))
    -- Both states are sound, so the count of an object is that of the handles to it.
    have ht : (s.setHandle x o).Sound := setHandle_sound hs.sound hsafe x
    have howned : (s.setHandle x o).store.owned = s.store.owned := by
      rw [← cells_owned, ← cells_owned]
      exact flatMap_cells_setHandle hx Body.owned
    rw [refs, refs, ht.refs_eq, hs.sound.refs_eq, howned,
      count_roots_setHandle hx Handle.noConfusion]
    omega

theorem Settled.gains (hs : s.Settled) (hx : s.handle x = .null) (ho : o = .null ∨ o ∈ s.owners) :
    s.Gains (s.setHandle x o) x o where
  target := handle_setHandle s x o
  others _ hy := handle_setHandle_of_ne hy s o
  refs := hs.refs_setHandle hx ho

theorem tryCast_run {k : Kind} {h : String} {v : View}
    (hc : s.store.tryCast k (s.handle h) = .ok o) (hv : s.store.view o = .ok v) (x : String) :
    Action.step (.handle (.tryCast h k (some x))) s = (.ok (.object v), s.setHandle x o) := by
  have hconvert := Action.convert_run_ok (g := (·.tryCast k (s.handle h))) hc (some k)
  show (Action.ask (·.handle h) >>= _ : Action Answer) s = _
  rw [Action.bind_ok (Action.ask_run _ s), Action.bind_ok hconvert, Action.map_deliver_run,
    Action.deliver_run, hv]
  rfl

theorem Settled.casts (hs : s.Settled) (k : Kind) : s.Casts k where
  agree _ ho := k.downcasts ho
  keeps o c x ho hc hx := by
    obtain rfl := Store.eq_of_tryCast hc
    exact hs.gains hx ho
  step h c x v hc hx hv := by
    obtain rfl := Store.eq_of_tryCast hc
    have hrun := tryCast_run hc hv x
    have hheld : (s.setHandle x (s.handle h)).held = [] := hs.held
    have howner : s.handle h = .null ∨ s.handle h ∈ s.owners :=
      (s.handle_mem_roots h).imp_right fun hm => hs.owners_eq ▸ List.mem_append_left _ hm
    refine ⟨outcome_advance _ hrun, ?_⟩
    rw [advance_eq_endStep _ hrun, endStep_of_held_eq_nil hheld]
    exact hs.gains hx howner

/-- After any steps, every way to test or to cast a handle gives the same answer. -/
theorem run_casts (steps : List Step) (k : Kind) : (start.advanceAll steps).2.Casts k :=
  (run_settled steps).casts k

end Session

end CountedObjects
