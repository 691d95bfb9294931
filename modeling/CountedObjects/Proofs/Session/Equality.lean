import CountedObjects.Proofs.Session.Run
import CountedObjects.Proofs.Store.Recursion

/-! Equality and hashes of the objects of a session. Handles in a session are null, point to
descriptors or point to live objects. -/
namespace CountedObjects

namespace Store

variable {s : Store} {os : List Handle}

/-- Equal objects hash alike, by themselves and as keys, and nothing but null equals null. Two zeros
are equal whatever their signs, and two pairs are if their parts are. -/
structure LawfulHash (s : Store) : Prop where
  hashCode_eq : ∀ a b, s.Safe a → s.Safe b → s.equals a b = true →
    a = .null ∧ b = .null ∨ a ≠ .null ∧ b ≠ .null ∧ s.hashCode a = s.hashCode b
  keyHash_eq : ∀ a b, s.Safe a → s.Safe b → s.equals a b = true → s.keyHash a = s.keyHash b
  equals_of_isZero : ∀ a b x y, s.body? a = some (.boxed (.double x)) →
    s.body? b = some (.boxed (.double y)) → x.isZero = true → y.isZero = true →
      s.equals a b = true
  equals_pair : ∀ a b k v l w, s.body? a = some (.pair k v) → s.body? b = some (.pair l w) →
    (s.equals a b = true ↔ s.equals k l = true ∧ s.equals v w = true)

/-- Equality is symmetric and transitive, and reflexive except where there is a NaN. It tells apart
null, kinds and enumerations, and it is one whether null is asked for first or the object on the
left or the key decides. -/
structure LawfulEquality (s : Store) : Prop where
  comm : ∀ a b, s.Safe a → s.Safe b → s.equals a b = s.equals b a
  trans : ∀ a b c, s.Safe a → s.Safe b → s.Safe c → s.equals a b = true → s.equals b c = true →
    s.equals a c = true
  self : ∀ a, s.Safe a → (s.equals a a = false ↔ s.HoldsNaN a)
  null : ∀ a, s.Safe a →
    (s.equals .null a = true ↔ a = .null) ∧ (s.equals a .null = true ↔ a = .null)
  kind : ∀ a b k, s.Safe a → s.Safe b → s.isKind k a ≠ s.isKind k b → s.equals a b = false
  enumeration : ∀ a b d e m n, s.body? a = some (.enumValue d m) →
    s.body? b = some (.enumValue e n) → d ≠ e → s.equals a b = false
  object : ∀ a b, a ≠ .null → s.objectEquals a b = s.equals a b
  key : ∀ a b, ElementType.key.same s a b = s.equals a b

theorem Sound.lawfulHash (h : s.Sound os) : s.LawfulHash where
  hashCode_eq a b ha hb hab := by
    cases a with
    | null => exact .inl ⟨rfl, (equals_null s b).mp hab⟩
    | _ =>
      refine .inr ⟨Handle.noConfusion, ?_, h.hashCode_eq ha hb hab⟩
      rintro rfl
      rw [h.equals_comm ha hb, equals_null] at hab
      cases hab
  keyHash_eq a b ha hb hab := by rw [keyHash, keyHash, h.hashCode_eq ha hb hab]
  equals_of_isZero a b x y ha hb hx hy := by
    rw [equals_boxed ha hb, Scalar.same, Double.same_iff, Double.canonical, Double.canonical,
      Double.canonicalBits_eq_iff.mpr (.inr ⟨hx, hy⟩)]
    exact ⟨Double.isNaN_of_isZero hx, rfl⟩
  equals_pair _ _ _ _ _ _ ha hb := h.ordered.equals_pair ha hb

theorem Sound.lawfulEquality (h : s.Sound os) : s.LawfulEquality where
  comm _ _ ha hb := h.equals_comm ha hb
  trans _ _ _ ha hb hc := h.equals_trans ha hb hc
  self _ ha := h.equals_self ha
  null a ha := by
    rw [h.equals_comm ha safe_null]
    exact ⟨equals_null s a, equals_null s a⟩
  kind a b k ha hb hk := by
    rw [← Bool.not_eq_true]
    exact fun hab => hk (h.isKind_eq ha hb hab k)
  enumeration a b d e m n ha hb hde := by
    rw [← Bool.not_eq_true, equals_enumValue ha hb]
    exact fun heq => hde heq.1
  object _ _ ha := (equals_eq_objectEquals ha).symm
  key _ _ := rfl

end Store

namespace Session

variable {s : Session}

theorem demand_run {h : Handle} (hs : s.store.Safe h) (hh : h ≠ .null) :
    ∃ p, Action.query (·.demand h) s = (.ok p, s) := by
  rw [Action.query_run]
  cases h with
  | null => exact absurd rfl hh
  | type d => exact ⟨_, rfl⟩
  | object id =>
    obtain ⟨c, hc⟩ := hs.isLive
    exact ⟨.stored c, by rw [Store.demand, Store.pointee?, hc]; rfl⟩

theorem hash_run {h : Handle} (hs : s.store.Safe h) (hh : h ≠ .null) :
    Action.hash h s = (.ok (s.store.shape h, s.store.hashCode h), s) := by
  obtain ⟨p, hp⟩ := demand_run hs hh
  exact Action.bind_ok hp _

/-! What the steps answer that ask for equality. -/

theorem outcome_equals (s : Session) (a b : String) :
    (s.advance (.handle (.equals a b))).1.outcome =
      .ok (.flag (s.store.equals (s.handle a) (s.handle b))) := rfl

theorem outcome_keyEquals (s : Session) (a b : String) :
    (s.advance (.handle (.keyEquals a b))).1.outcome =
      .ok (.flag (ElementType.key.same s.store (s.handle a) (s.handle b))) := rfl

variable {a b : String}

theorem Sound.outcome_equalsMethod (hs : s.Sound) (ha : s.handle a ≠ .null) (b : String) :
    (s.advance (.handle (.equalsMethod a b))).1.outcome =
      .ok (.flag (s.store.objectEquals (s.handle a) (s.handle b))) := by
  obtain ⟨p, hp⟩ := demand_run (hs.safe_handle a) ha
  exact congrArg Prod.fst (Action.bind_ok hp _)

theorem Sound.outcome_hashEquals (hs : s.Sound) (ha : s.handle a ≠ .null)
    (hb : s.handle b ≠ .null) : (s.advance (.handle (.hashEquals a b))).1.outcome =
      .ok (.flag (s.store.hashCode (s.handle a) == s.store.hashCode (s.handle b))) := by
  have hv := hash_run (hs.safe_handle a) ha
  have hw := hash_run (hs.safe_handle b) hb
  refine (congrArg Prod.fst (Action.bind_ok hv _)).trans ?_
  exact congrArg Prod.fst (Action.bind_ok hw _)

/-- After any steps; and of two names for equal objects the hashes are found equal. -/
theorem run_lawfulHash (steps : List Step) :
    let s := (start.advanceAll steps).2
    s.store.LawfulHash ∧
      ∀ a b, s.handle a ≠ .null → s.store.equals (s.handle a) (s.handle b) = true →
        (s.advance (.handle (.hashEquals a b))).1.outcome = .ok (.flag true) := by
  intro s
  have hs : s.Sound := (run_settled steps).sound
  refine ⟨hs.lawfulHash, fun a b ha hab => ?_⟩
  obtain ⟨hn, -⟩ | ⟨-, hb, hh⟩ :=
    hs.lawfulHash.hashCode_eq _ _ (hs.safe_handle a) (hs.safe_handle b) hab
  · exact absurd hn ha
  · rw [hs.outcome_hashEquals ha hb, hh, beq_self_eq_true]

/-- After any steps; and the three ways to ask whether two names are for equal objects have one
answer. -/
theorem run_lawfulEquality (steps : List Step) :
    let s := (start.advanceAll steps).2
    s.store.LawfulEquality ∧ ∀ a b,
      (s.advance (.handle (.keyEquals a b))).1.outcome =
        (s.advance (.handle (.equals a b))).1.outcome ∧
      (s.handle a ≠ .null → (s.advance (.handle (.equalsMethod a b))).1.outcome =
        (s.advance (.handle (.equals a b))).1.outcome) := by
  intro s
  have hs : s.Sound := (run_settled steps).sound
  refine ⟨hs.lawfulEquality, fun a b => ⟨?_, fun ha => ?_⟩⟩
  · rw [outcome_keyEquals, outcome_equals, hs.lawfulEquality.key]
  · rw [hs.outcome_equalsMethod ha, outcome_equals, hs.lawfulEquality.object _ _ ha]

/-- After any steps the recursion into pairs ends on every object, also on a pair in a list that the
pair holds. -/
theorem run_recurses (steps : List Step) : (start.advanceAll steps).2.store.Recurses :=
  (run_settled steps).sound.recurses

example :
    let s := (start.advanceAll [.list (.new "l" .object []),
      .list (.add "l" (.pair (.handle "l") .null))]).2.store
    s.body? (.object 1) = some (.pair (.object 0) .null) ∧
      s.contents? (.object 0) = some (.list .object [.object 1]) := by
  decide +kernel

end Session

end CountedObjects
