import CountedObjects.Proofs.EnumText
import CountedObjects.Proofs.Session.Conversions
import CountedObjects.Proofs.Session.FlaggedSteps

/-! Enum values are unboxed to members of an enumeration. This succeeds exactly for values of the
enumeration's own descriptor whose ordinal some member has, and gives the first such member. -/
namespace CountedObjects

/-- The first member declared with the ordinal. -/
def Enumeration.IsFirst (e : Enumeration) (m : String × Int32) (n : Int32) : Prop :=
  ∃ before after, e.members = before ++ m :: after ∧ m.2 = n ∧ ∀ x ∈ before, x.2 ≠ n

namespace Enumeration

variable {e : Enumeration} {m : String × Int32} {n : Int32}

theorem ofOrdinal?_eq_some_iff : e.ofOrdinal? n = some m ↔ e.IsFirst m n := by
  rw [ofOrdinal?, List.find?_eq_some_iff_append]
  constructor
  · rintro ⟨hm, before, after, hsplit, hbefore⟩
    exact ⟨before, after, hsplit, by simpa using hm, fun x hx => by simpa using hbefore x hx⟩
  · rintro ⟨before, after, hsplit, hm, hbefore⟩
    exact ⟨by simpa using hm, before, after, hsplit, fun x hx => by simpa using hbefore x hx⟩

theorem ofOrdinal?_eq_none (h : ∀ x ∈ e.members, x.2 ≠ n) : e.ofOrdinal? n = none :=
  List.find?_eq_none.mpr fun x hx => by simpa using h x hx

/-- With distinct ordinals every member is the first one with its ordinal. -/
theorem isFirst_of_mem (h : (e.members.map Prod.snd).Nodup) (hm : m ∈ e.members) :
    e.IsFirst m m.2 := by
  obtain ⟨before, after, hsplit⟩ := List.append_of_mem hm
  refine ⟨before, after, hsplit, rfl, fun x hx heq => ?_⟩
  rw [hsplit, List.map_append, List.map_cons, List.nodup_append] at h
  exact h.2.2 x.2 (List.mem_map_of_mem hx) m.2 List.mem_cons_self heq

end Enumeration

namespace EnumValue

variable {s : Store} {o : Handle} {e : Enumeration} {expected d : Descriptor} {n : Int32}
  {m : String × Int32}

theorem unbox_of_enumValue (hb : s.body? o = some (.enumValue d n)) :
    unbox s e expected o = .ofObject (member e expected d n) := by
  rw [unbox, Store.isNull_of_body? hb, hb]
  rfl

theorem unbox_of_null (hn : o.isNull = true) :
    unbox s e expected o = .error (.object .nullReference) := by
  rw [unbox, if_pos hn]

theorem unbox_of_other (hn : o.isNull = false)
    (hb : ∀ d n, s.body? o ≠ some (.enumValue d n)) :
    unbox s e expected o = s.mismatch expected.fullName o := by
  unfold unbox
  rw [hn, if_neg Bool.false_ne_true]
  split
  · next d n hd => exact absurd hd (hb d n)
  · rfl

theorem member_of_ofOrdinal? (h : e.ofOrdinal? n = some m) : member e d d n = .ok m := by
  rw [member, if_pos rfl, h]

theorem member_of_unnamed (h : e.ofOrdinal? n = none) :
    member e d d n =
      .error (.invalidCast d.fullName (d.fullName ++ "(" ++ toString n.toInt ++ ")")) := by
  rw [member, if_pos rfl, h, ← Text.numeralText_eq]

theorem member_of_ne (h : expected ≠ d) :
    member e expected d n = .error (.invalidCast expected.fullName d.fullName) := by
  rw [member, if_neg h]

theorem unbox_eq_ok_iff :
    unbox s e expected o = .ok m ↔
      ∃ n, s.body? o = some (.enumValue expected n) ∧ e.ofOrdinal? n = some m := by
  constructor
  · intro hm
    cases hn : o.isNull with
    | true =>
      rw [unbox_of_null hn] at hm
      cases hm
    | false =>
      by_cases hb : ∃ d n, s.body? o = some (.enumValue d n)
      · obtain ⟨d, n, hb⟩ := hb
        rw [unbox_of_enumValue hb] at hm
        by_cases hd : expected = d
        · subst hd
          refine ⟨n, hb, ?_⟩
          cases hfind : e.ofOrdinal? n with
          | none =>
            rw [member_of_unnamed hfind] at hm
            cases hm
          | some m' =>
            rw [member_of_ofOrdinal? hfind] at hm
            cases hm
            rfl
        · rw [member_of_ne hd] at hm
          cases hm
      · rw [unbox_of_other hn fun d n hd => hb ⟨d, n, hd⟩] at hm
        exact absurd hm Store.mismatch_ne_ok
  · rintro ⟨n, hb, hfind⟩
    rw [unbox_of_enumValue hb, member_of_ofOrdinal? hfind]
    rfl

end EnumValue

namespace Session

variable {s t : Session} {e : Enumeration} {o : Handle} {m : String × Int32}

/-- The descriptor of an enumeration, which is built if the table does not list it. -/
def enumType (s : Session) (e : Enumeration) : Descriptor := (s.realm.registry.enumType e).1

/-- The member of an enumeration that an object is unboxed to. -/
def unboxEnum (s : Session) (e : Enumeration) (o : Handle) : Result (String × Int32) :=
  EnumValue.unbox s.store e (s.enumType e) o

/-- No descriptor is requested for a null handle. -/
theorem unbox_run (s : Session) (h : String) (e : Enumeration) :
    ∃ u, Action.step (.enumeration (.unbox h e)) s =
      ((s.unboxEnum e (s.handle h)).map
        fun m => .member m.2 ((s.enumType e).memberText m.2), u) := by
  cases hn : (s.handle h).isNull with
  | true =>
    refine ⟨s, ?_⟩
    rw [unboxEnum, EnumValue.unbox_of_null hn]
    show (Action.ask (·.handle h) >>= _ : Action Answer) s = _
    rw [Action.bind_ok (Action.ask_run _ s), hn]
    rfl
  | false =>
    let u : Session := { s with realm := ⟨(s.realm.registry.enumType e).2, s.realm.store⟩ }
    have hquery : Action.query (fun x => EnumValue.unbox x e (s.enumType e) (s.handle h)) u =
        (s.unboxEnum e (s.handle h), u) := Action.query_run ..
    have htype : Action.enumType e s = (.ok (s.enumType e), u) := rfl
    refine ⟨u, ?_⟩
    show (Action.ask (·.handle h) >>= _ : Action Answer) s = _
    rw [Action.bind_ok (Action.ask_run _ s), hn, if_neg Bool.false_ne_true]
    refine (Action.bind_ok htype _).trans ?_
    cases hm : s.unboxEnum e (s.handle h) with
    | error x =>
      rw [hm] at hquery
      exact Action.bind_error hquery _
    | ok m =>
      rw [hm] at hquery
      exact Action.bind_ok hquery _

/-- What unboxing to an enumeration answers, and that boxing takes it back. -/
structure Unboxes (s : Session) (e : Enumeration) : Prop where
  ok_iff : ∀ o m, s.unboxEnum e o = .ok m ↔
    ∃ n, s.store.body? o = some (.enumValue (s.enumType e) n) ∧ e.IsFirst m n
  boxes : ∀ o m, s.unboxEnum e o = .ok m → ∃ h t, Action.boxMember e m s = (.ok h, t) ∧
    t.store.equals h o = true ∧ t.store.equals o h = true ∧
    t.store.hashCode h = t.store.hashCode o ∧ t.store.hashCode o = s.store.hashCode o
  null : ∀ o, o.isNull = true → s.unboxEnum e o = .error (.object .nullReference)
  other_kind : ∀ o d, s.store.reportedType o = .ok (some d) →
    (∀ x n, s.store.body? o ≠ some (.enumValue x n)) →
      s.unboxEnum e o = .error (.object (.invalidCast (s.enumType e).fullName d.fullName))
  other_enum : ∀ o d n, s.store.body? o = some (.enumValue d n) → d ≠ s.enumType e →
    s.unboxEnum e o = .error (.object (.invalidCast (s.enumType e).fullName d.fullName))
  unnamed : ∀ o n, s.store.body? o = some (.enumValue (s.enumType e) n) →
    (∀ x ∈ e.members, x.2 ≠ n) → s.unboxEnum e o = .error (.object (.invalidCast
      (s.enumType e).fullName ((s.enumType e).fullName ++ "(" ++ toString n.toInt ++ ")")))
  refused : ∀ o, s.store.Typed o → o.isNull = false → (∀ m, s.unboxEnum e o ≠ .ok m) →
    ∃ actual, s.unboxEnum e o = .error (.object (.invalidCast (s.enumType e).fullName actual))
  boxed : (e.members.map Prod.snd).Nodup → ∀ m ∈ e.members, ∃ h t,
    Action.boxMember e m s = (.ok h, t) ∧ t.unboxEnum e h = .ok m
  step : ∀ h, (s.advance (.enumeration (.unbox h e))).1.outcome =
    (s.unboxEnum e (s.handle h)).map fun m => .member m.2 ((s.enumType e).memberText m.2)

theorem unboxEnum_eq_ok_iff :
    s.unboxEnum e o = .ok m ↔
      ∃ n, s.store.body? o = some (.enumValue (s.enumType e) n) ∧ e.IsFirst m n := by
  simp only [unboxEnum, EnumValue.unbox_eq_ok_iff, Enumeration.ofOrdinal?_eq_some_iff]

/-- A member is boxed under the descriptor of its enumeration, and nothing else changes. -/
theorem Sound.boxMember (hs : s.Sound) (e : Enumeration) (m : String × Int32) :
    ∃ h t, Action.boxMember e m s = (.ok h, t) ∧ s.store.Grows t.store ∧
      t.enumType e = s.enumType e ∧
      t.store.body? h = some (.enumValue (s.enumType e) m.2) := by
  let r : Realm := ⟨(s.realm.registry.enumType e).2, s.store⟩
  let b : Body := .enumValue (s.enumType e) m.2
  have hrun : Action.boxMember e m s =
      (.ok (r.make b).1, ({ s with realm := (r.make b).2 } : Session).hold (r.make b).1) := rfl
  have hgrows := (Action.boxMember_ensures hs e m).follows.store
  rw [hrun] at hgrows
  refine ⟨_, _, hrun, hgrows, ?_, Realm.body?_make r b⟩
  have hlisted : (s.realm.registry.enumType e).2.lookup e.id = some (s.enumType e) :=
    Registry.lookup_settle ..
  have hkept : (r.make b).2.registry.lookup e.id = some (s.enumType e) :=
    r.registry.request_keeps (.kind b.kind) b.kind.recipe e.id _ hlisted
  show ((r.make b).2.registry.enumType e).1 = s.enumType e
  rw [Registry.enumType, Registry.request, Registry.settle_of_some hkept]

theorem Sound.unboxes (hs : s.Sound) (e : Enumeration) : s.Unboxes e := by
  constructor
  case ok_iff => exact fun _ _ => unboxEnum_eq_ok_iff
  case boxes =>
    intro o m hm
    obtain ⟨n, hb, -, -, -, rfl, -⟩ := unboxEnum_eq_ok_iff.mp hm
    obtain ⟨h, t, hrun, hgrows, -, hh⟩ := hs.boxMember e m
    have ho := hgrows.body? hb
    have hequal : ∀ {x y}, t.store.body? x = some (.enumValue (s.enumType e) m.2) →
        t.store.body? y = some (.enumValue (s.enumType e) m.2) → t.store.equals x y = true :=
      fun hx hy => (Store.equals_enumValue hx hy).mpr ⟨rfl, rfl⟩
    refine ⟨h, t, hrun, hequal hh ho, hequal ho hh, ?_, ?_⟩
    · rw [Store.hashCode, Store.hashCode, Store.shape_enumValue hh, Store.shape_enumValue ho]
    · rw [Store.hashCode, Store.hashCode, Store.shape_enumValue ho, Store.shape_enumValue hb]
  case null => exact fun _ hn => EnumValue.unbox_of_null hn
  case other_kind =>
    intro o d hd hb
    have hn : o.isNull = false := by
      cases o with
      | null => cases hd
      | type | object => rfl
    rw [unboxEnum, EnumValue.unbox_of_other hn hb, Store.mismatch_of_reportedType hd]
  case other_enum =>
    intro o d n hb hd
    rw [unboxEnum, EnumValue.unbox_of_enumValue hb, EnumValue.member_of_ne (Ne.symm hd)]
    rfl
  case unnamed =>
    intro o n hb hn
    rw [unboxEnum, EnumValue.unbox_of_enumValue hb,
      EnumValue.member_of_unnamed (Enumeration.ofOrdinal?_eq_none hn)]
    rfl
  case refused =>
    intro o ho hn hne
    by_cases hb : ∃ d n, s.store.body? o = some (.enumValue d n)
    · obtain ⟨d, n, hb⟩ := hb
      rw [unboxEnum, EnumValue.unbox_of_enumValue hb] at hne ⊢
      cases hm : EnumValue.member e (s.enumType e) d n with
      | ok m => exact absurd (by rw [hm]; rfl) (hne m)
      | error x =>
        unfold EnumValue.member at hm
        split at hm
        · split at hm
          · cases hm
          · cases hm
            exact ⟨_, rfl⟩
        · cases hm
          exact ⟨_, rfl⟩
    · obtain ⟨d, hd⟩ := ho.exists_reportedType hn
      refine ⟨d.fullName, ?_⟩
      rw [unboxEnum, EnumValue.unbox_of_other hn fun d n hd => hb ⟨d, n, hd⟩,
        Store.mismatch_of_reportedType hd]
  case boxed =>
    intro hnodup m hm
    obtain ⟨h, t, hrun, -, htype, hh⟩ := hs.boxMember e m
    refine ⟨h, t, hrun, unboxEnum_eq_ok_iff.mpr ⟨m.2, ?_, Enumeration.isFirst_of_mem hnodup hm⟩⟩
    rw [htype]
    exact hh
  case step =>
    intro h
    obtain ⟨u, hrun⟩ := s.unbox_run h e
    exact outcome_advance _ hrun

/-- After steps that name no enumeration that is a type of objects, every enum value has a
descriptor of an enumeration, and unboxing to any enumeration is sound and complete. -/
theorem run_unboxes (steps : List Step)
    (he : ∀ step ∈ steps, ∀ e ∈ step.enumerations, e.IsApart) :
    let s := (start.advanceAll steps).2
    (∀ o d n, s.store.body? o = some (.enumValue d n) →
      s.store.reportedType o = .ok (some d) ∧ d.isEnum = true) ∧
    ∀ e, s.Unboxes e := by
  intro s
  refine ⟨fun o d n hb => ?_, fun e => (run_settled steps).sound.unboxes e⟩
  obtain ⟨id, rfl, -⟩ := Store.equals_of_body? hb o
  obtain ⟨c, hc, hcb⟩ := Option.map_eq_some_iff.mp hb
  refine ⟨?_, (run_flagged he).bodies id c hc d n hcb⟩
  rw [Store.reportedType_of_find? hc, Cell.reported, hcb]

/-- Two members of an enumeration share an ordinal. The second one is boxed, and unboxed as the
first one. -/
theorem run_unboxes_shared :
    ∃ steps : List Step, (∀ step ∈ steps, ∀ e ∈ step.enumerations, e.IsApart) ∧
      let s := (start.advanceAll steps).2
      (∀ o d n, s.store.body? o = some (.enumValue d n) →
        s.store.reportedType o = .ok (some d) ∧ d.isEnum = true) ∧
      s.Unboxes .dup ∧ s.unboxEnum .dup (s.handle "x") = .ok ("First", 1) := by
  have he : ∀ step ∈ [Step.handle (.new "x" (.member .dup "Second")),
      .enumeration (.ofOrdinal .dup 2)], ∀ e ∈ step.enumerations, e.IsApart := by decide +kernel
  obtain ⟨hflagged, hunboxes⟩ := run_unboxes _ he
  exact ⟨_, he, hflagged, hunboxes _, by decide +kernel⟩

end Session

end CountedObjects
