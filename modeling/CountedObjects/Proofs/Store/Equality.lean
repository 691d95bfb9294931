import CountedObjects.Cast
import CountedObjects.Element
import CountedObjects.Proofs.Store.Token

/-! Equality of objects. Objects of a sound store are equal exactly if they have one token and it
holds no NaN, from which all laws of equality follow. -/
namespace CountedObjects

/-- An object that has no value of its own. -/
def Body.IsEntity : Body → Prop
  | boxed _ | text _ | enumValue .. | pair .. => False
  | _ => True

theorem Body.token_of_isEntity (s : Store) (id : Nat) {x : Body} (hx : x.IsEntity) :
    x.token s id = .entity id := by
  cases x <;> first | exact hx.elim | rfl

namespace Store

variable {s : Store} {id : Nat} {a b c : Handle} {os : List Handle}

theorem Sound.safe_of_pair (h : s.Sound os) {k v : Handle} (hb : s.body? a = some (.pair k v)) :
    s.SafeAll [k, v] := by
  cases a with
  | null => cases hb
  | type d => cases hb
  | object id =>
    obtain ⟨c, hc, hx⟩ := Option.map_eq_some_iff.mp hb
    exact fun x hm => h.safe_of_owned hc (hx ▸ hm)

theorem Ordered.rank_of_pair (h : s.Ordered) {k v : Handle}
    (hb : s.body? (.object id) = some (.pair k v)) : ∀ x ∈ [k, v], x.rank ≤ id := by
  obtain ⟨c, hc, hx⟩ := Option.map_eq_some_iff.mp hb
  exact fun x hm => h id c hc x (hx ▸ hm)

theorem equals_null (s : Store) (b : Handle) : s.equals .null b = true ↔ b = .null := by
  rw [equals.eq_def]
  cases b <;> simp [Handle.isNull]

theorem equals_eq_objectEquals (ha : a ≠ .null) : s.equals a b = s.objectEquals a b := by
  cases a with
  | null => exact absurd rfl ha
  | type d => rw [equals.eq_def]
  | object id => rw [equals.eq_def]

/-! What each kind of object takes for equal to itself. -/

theorem objectEquals_type (s : Store) (d : Descriptor) (b : Handle) :
    s.objectEquals (.type d) b = true ↔ ∃ e, b = .type e ∧ d.id = e.id := by
  rw [objectEquals.eq_def]
  cases b <;> simp

theorem objectEquals_boxed {v : Scalar} (ha : s.body? (.object id) = some (.boxed v)) :
    s.objectEquals (.object id) b = true ↔
      ∃ w, s.body? b = some (.boxed w) ∧ v.same w = true := by
  rw [objectEquals.eq_def]
  simp only [ha]
  split
  · next w hw => simp [hw]
  · next hne =>
    constructor
    · exact fun hf => absurd hf Bool.false_ne_true
    · intro hex
      rcases hex with ⟨w, hw, -⟩
      exact (hne w hw).elim

theorem objectEquals_text {x : String} (ha : s.body? (.object id) = some (.text x)) :
    s.objectEquals (.object id) b = true ↔ s.body? b = some (.text x) := by
  rw [objectEquals.eq_def]
  simp only [ha]
  split
  · next y hy =>
    rw [hy, beq_iff_eq, Option.some.injEq, Body.text.injEq]
    exact eq_comm
  · next hne => exact ⟨fun hf => absurd hf Bool.false_ne_true, fun hx => (hne x hx).elim⟩

theorem objectEquals_enumValue {d : Descriptor} {n : Int32}
    (ha : s.body? (.object id) = some (.enumValue d n)) :
    s.objectEquals (.object id) b = true ↔ s.body? b = some (.enumValue d n) := by
  rw [objectEquals.eq_def]
  simp only [ha]
  split
  · next e m hm =>
    rw [hm, Bool.and_eq_true, beq_iff_eq, beq_iff_eq, Option.some.injEq, Body.enumValue.injEq]
    exact and_congr eq_comm eq_comm
  · next hne => exact ⟨fun hf => absurd hf Bool.false_ne_true, fun hx => (hne d n hx).elim⟩

theorem Ordered.objectEquals_pair (ho : s.Ordered) {k v : Handle}
    (ha : s.body? (.object id) = some (.pair k v)) :
    s.objectEquals (.object id) b = true ↔
      ∃ l w, s.body? b = some (.pair l w) ∧ s.equals k l = true ∧ s.equals v w = true := by
  rw [objectEquals.eq_def]
  simp only [ha]
  split
  · next l w hw =>
    have hr : k.rank ≤ id ∧ v.rank ≤ id := by simpa using ho.rank_of_pair ha
    rw [if_pos hr, Bool.and_eq_true, hw]
    constructor
    · exact fun h => ⟨l, w, rfl, h⟩
    · intro hex
      rcases hex with ⟨_, _, e, h⟩
      cases e
      exact h
  · next hne =>
    constructor
    · exact fun hf => absurd hf Bool.false_ne_true
    · intro hex
      rcases hex with ⟨l, w, hw, -⟩
      exact (hne l w hw).elim

/-- An object without a value is equal to itself alone. -/
theorem objectEquals_entity {x : Body} (ha : s.body? (.object id) = some x) (hx : x.IsEntity) :
    s.objectEquals (.object id) b = true ↔ b = .object id := by
  rw [objectEquals.eq_def]
  simp only [ha]
  cases x <;> first | exact hx.elim | exact beq_iff_eq

/-! The same in terms of tokens. -/

theorem Ordered.equals_iff_of_null (ho : s.Ordered) (hb : s.Safe b) :
    s.equals .null b = true ↔ ¬ Token.null.HasNaN ∧ .null = s.token b := by
  rw [equals_null]
  constructor
  · rintro rfl
    exact ⟨not_false, (token_null s).symm⟩
  · intro h
    rcases h with ⟨-, e⟩
    exact ho.denotes hb e

theorem Ordered.equals_iff_of_type (ho : s.Ordered) (hb : s.Safe b) (d : Descriptor) :
    s.objectEquals (.type d) b = true ↔ ¬ (Token.type d.id).HasNaN ∧ .type d.id = s.token b := by
  rw [objectEquals_type]
  constructor
  · intro h
    rcases h with ⟨e, rfl, he⟩
    rw [token_type, he]
    exact ⟨not_false, rfl⟩
  · intro h
    rcases h with ⟨-, e⟩
    obtain ⟨d', rfl, hd⟩ := ho.denotes hb e
    exact ⟨d', rfl, hd.symm⟩

theorem Ordered.equals_iff_of_boxed (ho : s.Ordered) (hb : s.Safe b) {v : Scalar}
    (ha : s.body? (.object id) = some (.boxed v)) :
    s.objectEquals (.object id) b = true ↔
      ¬ (Token.boxed v.canonical).HasNaN ∧ .boxed v.canonical = s.token b := by
  rw [objectEquals_boxed ha, Token.HasNaN, v.isNaN_canonical, Bool.not_eq_true]
  constructor
  · intro h
    rcases h with ⟨w, hw, hs⟩
    obtain ⟨hnan, hvw⟩ := Scalar.same_iff.mp hs
    obtain ⟨j, -, hj⟩ := ho.token_of_body? hw
    exact ⟨hnan, hj ▸ congrArg Token.boxed hvw⟩
  · intro h
    rcases h with ⟨hnan, e⟩
    obtain ⟨w, hw, hwv⟩ := ho.denotes hb e
    exact ⟨w, hw, Scalar.same_iff.mpr ⟨hnan, hwv.symm⟩⟩

theorem Ordered.equals_iff_of_text (ho : s.Ordered) (hb : s.Safe b) {x : String}
    (ha : s.body? (.object id) = some (.text x)) :
    s.objectEquals (.object id) b = true ↔ ¬ (Token.text x).HasNaN ∧ .text x = s.token b := by
  rw [objectEquals_text ha]
  constructor
  · intro hx
    obtain ⟨j, -, hj⟩ := ho.token_of_body? hx
    exact ⟨not_false, hj.symm⟩
  · intro h
    rcases h with ⟨-, e⟩
    exact ho.denotes hb e

theorem Ordered.equals_iff_of_enumValue (ho : s.Ordered) (hb : s.Safe b) {d : Descriptor}
    {n : Int32} (ha : s.body? (.object id) = some (.enumValue d n)) :
    s.objectEquals (.object id) b = true ↔
      ¬ (Token.enumValue d n).HasNaN ∧ .enumValue d n = s.token b := by
  rw [objectEquals_enumValue ha]
  constructor
  · intro hx
    obtain ⟨j, -, hj⟩ := ho.token_of_body? hx
    exact ⟨not_false, hj.symm⟩
  · intro h
    rcases h with ⟨-, e⟩
    exact ho.denotes hb e

theorem Ordered.equals_iff_of_entity (ho : s.Ordered) (hb : s.Safe b) {x : Body}
    (ha : s.body? (.object id) = some x) (hx : x.IsEntity) :
    s.objectEquals (.object id) b = true ↔
      ¬ (Token.entity id).HasNaN ∧ .entity id = s.token b := by
  rw [objectEquals_entity ha hx]
  constructor
  · rintro rfl
    obtain ⟨j, e, hj⟩ := ho.token_of_body? ha
    cases e
    exact ⟨not_false, (hj.trans (Body.token_of_isEntity s id hx)).symm⟩
  · intro h
    rcases h with ⟨-, e⟩
    exact ho.denotes hb e

/-- Pairs compare their parts, where the same is known of the parts of the pair on the left. -/
theorem Sound.equals_iff_of_pair (h : s.Sound os) (hb : s.Safe b) {k v : Handle}
    (ha : s.body? (.object id) = some (.pair k v))
    (ih : ∀ x ∈ [k, v], ∀ y, s.Safe y →
      (s.equals x y = true ↔ ¬ (s.token x).HasNaN ∧ s.token x = s.token y)) :
    s.objectEquals (.object id) b = true ↔
      ¬ (Token.pair (s.token k) (s.token v)).HasNaN ∧
        .pair (s.token k) (s.token v) = s.token b := by
  rw [h.ordered.objectEquals_pair ha]
  constructor
  · intro hab
    rcases hab with ⟨l, w, hlw, hkl, hvw⟩
    obtain ⟨hl, hw⟩ := safeAll_pair.mp (h.safe_of_pair hlw)
    obtain ⟨nk, ek⟩ := (ih k (by simp) l hl).mp hkl
    obtain ⟨nv, ev⟩ := (ih v (by simp) w hw).mp hvw
    obtain ⟨j, -, hj⟩ := h.ordered.token_of_body? hlw
    rw [hj, Body.token, ← ek, ← ev]
    exact ⟨not_or.mpr ⟨nk, nv⟩, rfl⟩
  · intro hab
    rcases hab with ⟨hnan, e⟩
    obtain ⟨l, w, hlw, el, ew⟩ := h.ordered.denotes hb e
    obtain ⟨hl, hw⟩ := safeAll_pair.mp (h.safe_of_pair hlw)
    obtain ⟨nk, nv⟩ := not_or.mp hnan
    exact ⟨l, w, hlw, (ih k (by simp) l hl).mpr ⟨nk, el.symm⟩,
      (ih v (by simp) w hw).mpr ⟨nv, ew.symm⟩⟩

/-- The object on the left decides, and by its token alone. -/
theorem Sound.equals_iff (h : s.Sound os) (ha : s.Safe a) (hb : s.Safe b) :
    s.equals a b = true ↔ ¬ (s.token a).HasNaN ∧ s.token a = s.token b := by
  induction hn : a.rank using Nat.strongRecOn generalizing a b with
  | _ n ih =>
  cases a with
  | null =>
    rw [token_null]
    exact h.ordered.equals_iff_of_null hb
  | type d =>
    rw [equals_eq_objectEquals Handle.noConfusion, token_type]
    exact h.ordered.equals_iff_of_type hb d
  | object id =>
    obtain ⟨cell, hc⟩ := ha.isLive
    rw [equals_eq_objectEquals Handle.noConfusion, h.ordered.token_object hc]
    have hbody := body?_object hc
    cases hx : cell.body with
    | boxed v => exact h.ordered.equals_iff_of_boxed hb (hx ▸ hbody)
    | text x => exact h.ordered.equals_iff_of_text hb (hx ▸ hbody)
    | enumValue d m => exact h.ordered.equals_iff_of_enumValue hb (hx ▸ hbody)
    | pair k v =>
      have hpair : s.body? (.object id) = some (.pair k v) := hx ▸ hbody
      refine h.equals_iff_of_pair hb hpair fun x hm y hy => ?_
      have hrank : x.rank < n := by
        have := h.ordered.rank_of_pair hpair x hm
        simp only [Handle.rank] at hn
        omega
      exact ih _ hrank (h.safe_of_pair hpair x hm) hy rfl
    | _ => exact h.ordered.equals_iff_of_entity hb hbody (by rw [hx]; trivial)

/-! The laws. -/

/-- A boxed NaN, or a pair that holds one as its key or value or within them. -/
inductive HoldsNaN (s : Store) : Handle → Prop
  | boxed {h x} (hb : s.body? h = some (.boxed (.double x))) (hx : x.isNaN = true) : HoldsNaN s h
  | key {h k v} (hb : s.body? h = some (.pair k v)) (hk : HoldsNaN s k) : HoldsNaN s h
  | value {h k v} (hb : s.body? h = some (.pair k v)) (hv : HoldsNaN s v) : HoldsNaN s h

theorem Ordered.hasNaN_of_holdsNaN (ho : s.Ordered) (ha : s.HoldsNaN a) : (s.token a).HasNaN := by
  induction ha with
  | boxed hb hx =>
    obtain ⟨id, -, ht⟩ := ho.token_of_body? hb
    rw [ht, Body.token, Token.HasNaN, Scalar.isNaN_canonical]
    exact hx
  | key hb _ ih =>
    obtain ⟨id, -, ht⟩ := ho.token_of_body? hb
    rw [ht]
    exact .inl ih
  | value hb _ ih =>
    obtain ⟨id, -, ht⟩ := ho.token_of_body? hb
    rw [ht]
    exact .inr ih

theorem Sound.holdsNaN_iff (h : s.Sound os) (ha : s.Safe a) :
    s.HoldsNaN a ↔ (s.token a).HasNaN := by
  refine ⟨h.ordered.hasNaN_of_holdsNaN, fun hnan => ?_⟩
  generalize ht : s.token a = x at hnan
  induction x generalizing a with
  | boxed v =>
    obtain ⟨w, hw, rfl⟩ := h.ordered.denotes ha ht.symm
    rw [Token.HasNaN, w.isNaN_canonical] at hnan
    cases w with
    | double x => exact .boxed hw hnan
    | _ => cases hnan
  | pair x y ihx ihy =>
    obtain ⟨k, v, hb, hk, hv⟩ := h.ordered.denotes ha ht.symm
    obtain ⟨hsk, hsv⟩ := safeAll_pair.mp (h.safe_of_pair hb)
    rcases hnan with hnan | hnan
    · exact .key hb (ihx hsk hk hnan)
    · exact .value hb (ihy hsv hv hnan)
  | _ => exact hnan.elim

theorem Sound.equals_comm (h : s.Sound os) (ha : s.Safe a) (hb : s.Safe b) :
    s.equals a b = s.equals b a := by
  rw [Bool.eq_iff_iff, h.equals_iff ha hb, h.equals_iff hb ha]
  constructor
  · intro hab
    rcases hab with ⟨hn, e⟩
    exact ⟨e ▸ hn, e.symm⟩
  · intro hba
    rcases hba with ⟨hn, e⟩
    exact ⟨e ▸ hn, e.symm⟩

theorem Sound.equals_trans (h : s.Sound os) (ha : s.Safe a) (hb : s.Safe b) (hc : s.Safe c)
    (hab : s.equals a b = true) (hbc : s.equals b c = true) : s.equals a c = true := by
  obtain ⟨hn, e⟩ := (h.equals_iff ha hb).mp hab
  obtain ⟨-, e'⟩ := (h.equals_iff hb hc).mp hbc
  exact (h.equals_iff ha hc).mpr ⟨hn, e.trans e'⟩

theorem Sound.equals_self (h : s.Sound os) (ha : s.Safe a) :
    s.equals a a = false ↔ s.HoldsNaN a := by
  rw [h.holdsNaN_iff ha, ← Bool.not_eq_true, h.equals_iff ha ha]
  simp

theorem Sound.hashCode_eq (h : s.Sound os) (ha : s.Safe a) (hb : s.Safe b)
    (hab : s.equals a b = true) : s.hashCode a = s.hashCode b :=
  Shape.hash_eq_of_token_eq ((h.equals_iff ha hb).mp hab).2

theorem isKind_of_body? {x : Body} (hx : s.body? a = some x) (k : Kind) :
    s.isKind k a = (x.kind == k) := by
  cases a with
  | null => cases hx
  | type d => cases hx
  | object id =>
    obtain ⟨c, hc, rfl⟩ := Option.map_eq_some_iff.mp hx
    rw [isKind, pointee?, hc]
    rfl

/-- An object equals only objects of its kind. -/
theorem Sound.isKind_eq (h : s.Sound os) (ha : s.Safe a) (hb : s.Safe b)
    (hab : s.equals a b = true) (k : Kind) : s.isKind k a = s.isKind k b := by
  obtain ⟨-, e⟩ := (h.equals_iff ha hb).mp hab
  have of_a := h.ordered.denotes ha rfl
  have of_b := h.ordered.denotes hb e
  generalize s.token a = x at of_a of_b
  cases x with
  | null => rw [of_a, of_b]
  | type i =>
    obtain ⟨d, rfl, -⟩ := of_a
    obtain ⟨e, rfl, -⟩ := of_b
    rfl
  | boxed v =>
    obtain ⟨w, hw, rfl⟩ := of_a
    obtain ⟨w', hw', hww⟩ := of_b
    have hk : w.kind = w'.kind := by rw [← w.kind_canonical, ← hww, w'.kind_canonical]
    rw [isKind_of_body? hw, isKind_of_body? hw', Body.kind, Body.kind, hk]
  | text x => rw [isKind_of_body? of_a, isKind_of_body? of_b]
  | enumValue d n => rw [isKind_of_body? of_a, isKind_of_body? of_b]
  | pair x y =>
    obtain ⟨k, v, hkv, -⟩ := of_a
    obtain ⟨l, w, hlw, -⟩ := of_b
    rw [isKind_of_body? hkv, isKind_of_body? hlw, Body.kind, Body.kind]
  | entity id => rw [of_a, of_b]

/-! Equality of two objects of one kind. -/

theorem equals_of_body? {x : Body} (ha : s.body? a = some x) (b : Handle) :
    ∃ id, a = .object id ∧ s.equals a b = s.objectEquals (.object id) b := by
  cases a with
  | null => cases ha
  | type d => cases ha
  | object id => exact ⟨id, rfl, equals_eq_objectEquals Handle.noConfusion⟩

theorem equals_boxed {v w : Scalar} (ha : s.body? a = some (.boxed v))
    (hb : s.body? b = some (.boxed w)) : s.equals a b = true ↔ v.same w = true := by
  obtain ⟨id, rfl, he⟩ := equals_of_body? ha b
  rw [he, objectEquals_boxed ha, hb]
  refine ⟨?_, fun h => ⟨w, rfl, h⟩⟩
  intro hex
  rcases hex with ⟨_, e, h⟩
  cases e
  exact h

/-- Values of two enumerations are never equal, whatever their ordinals. -/
theorem equals_enumValue {d e : Descriptor} {m n : Int32} (ha : s.body? a = some (.enumValue d m))
    (hb : s.body? b = some (.enumValue e n)) : s.equals a b = true ↔ d = e ∧ m = n := by
  obtain ⟨id, rfl, he⟩ := equals_of_body? ha b
  rw [he, objectEquals_enumValue ha, hb, Option.some.injEq, Body.enumValue.injEq]
  exact and_congr eq_comm eq_comm

theorem Ordered.equals_pair (ho : s.Ordered) {k v l w : Handle}
    (ha : s.body? a = some (.pair k v)) (hb : s.body? b = some (.pair l w)) :
    s.equals a b = true ↔ s.equals k l = true ∧ s.equals v w = true := by
  obtain ⟨id, rfl, he⟩ := equals_of_body? ha b
  rw [he, ho.objectEquals_pair ha, hb]
  refine ⟨?_, fun h => ⟨l, w, rfl, h⟩⟩
  intro hex
  rcases hex with ⟨_, _, e, h⟩
  cases e
  exact h

end Store

end CountedObjects
