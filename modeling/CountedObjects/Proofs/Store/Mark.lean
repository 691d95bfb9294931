import CountedObjects.Element
import CountedObjects.Proofs.Store.Observation

/-! Marks of elements. A mark is what there is of an element for a collection to tell it apart from
others. Elements are equal exactly if they have one mark and it holds no NaN, and an element keeps
its mark while the objects that it holds live. -/
namespace CountedObjects

inductive Mark
  | value (x : Token)
  | identity (h : Handle)
  | missing
  | present (m : Mark)
  deriving DecidableEq

namespace Mark

def HasNaN : Mark → Prop
  | value x => x.HasNaN
  | present m => m.HasNaN
  | _ => False

instance decidableHasNaN : (m : Mark) → Decidable m.HasNaN
  | value x => inferInstanceAs (Decidable x.HasNaN)
  | present m => decidableHasNaN m
  | identity _ | missing => inferInstanceAs (Decidable False)

/-- Equality of elements in terms of their marks. What holds a NaN does not even equal itself. -/
def same (m n : Mark) : Bool := decide (¬ m.HasNaN ∧ m = n)

variable {m n o : Mark}

theorem same_iff : m.same n = true ↔ ¬ m.HasNaN ∧ m = n := decide_eq_true_iff

theorem same_self_iff : m.same m = true ↔ ¬ m.HasNaN := by rw [same_iff, and_iff_left rfl]

theorem same_comm (m n : Mark) : m.same n = n.same m := by
  rw [Bool.eq_iff_iff, same_iff, same_iff]
  constructor
  · intro h
    rcases h with ⟨hm, rfl⟩
    exact ⟨hm, rfl⟩
  · intro h
    rcases h with ⟨hn, rfl⟩
    exact ⟨hn, rfl⟩

/-- Equal marks are equal to the same marks. -/
theorem same_congr (h : m.same n = true) (o : Mark) : m.same o = n.same o := by
  rw [(same_iff.mp h).2]

theorem same_of_hasNaN (h : m.HasNaN) (n : Mark) : m.same n = false := by
  rw [← Bool.not_eq_true, same_iff]
  exact fun hs => hs.1 h

end Mark

namespace ElementType

variable {s t : Store} {os os' : List Handle}

/-- What is compared of an element: the value or the identity. -/
def mark (s : Store) : (t : ElementType) → t.Value → Mark
  | scalar k, v => .value (.boxed (k.wrap v).canonical)
  | string, v => .value (.text v)
  | object, v => .identity v
  | key, v => .value (s.token v)
  | pointer _, v => .identity v
  | option _, none => .missing
  | option t, some v => .present (t.mark s v)

theorem same_iff_mark (hs : s.Sound os) : (e : ElementType) → (v w : e.Value) →
    s.SafeAll (e.owned v) → s.SafeAll (e.owned w) →
      (e.same s v w = true ↔ ¬ (e.mark s v).HasNaN ∧ e.mark s v = e.mark s w)
  | scalar k, v, w, _, _ => by
    simp [same, mark, Mark.HasNaN, Token.HasNaN, Scalar.same_iff, Scalar.isNaN_canonical]
  | string, v, w, _, _ => by simp [same, mark, Mark.HasNaN, Token.HasNaN]
  | object, v, w, _, _ => by simp [same, mark, Mark.HasNaN]
  | pointer _, v, w, _, _ => by simp [same, mark, Mark.HasNaN]
  | key, v, w, hv, hw => by
    have ha : s.Safe v := hv v (List.mem_singleton_self v)
    have hb : s.Safe w := hw w (List.mem_singleton_self w)
    rw [same, hs.equals_iff ha hb, mark, mark, Mark.HasNaN, Mark.value.injEq]
  | option _, none, none, _, _ => by simp [same, mark, Mark.HasNaN]
  | option _, none, some _, _, _ => by simp [same, mark]
  | option _, some _, none, _, _ => by simp [same, mark]
  | option e, some v, some w, hv, hw => by
    rw [same, same_iff_mark hs e v w hv hw, mark, mark, Mark.HasNaN, Mark.present.injEq]

theorem same_eq_mark (hs : s.Sound os) (e : ElementType) {v w : e.Value}
    (hv : s.SafeAll (e.owned v)) (hw : s.SafeAll (e.owned w)) :
    e.same s v w = (e.mark s v).same (e.mark s w) := by
  rw [Bool.eq_iff_iff, Mark.same_iff, same_iff_mark hs e v w hv hw]

/-- Elements with one mark hash alike. -/
theorem hash_eq_of_mark_eq (s : Store) : (e : ElementType) → (v w : e.Value) →
    e.mark s v = e.mark s w → e.hash s v = e.hash s w
  | scalar _, _, _, h => Scalar.hash_eq_of_canonical_eq (Token.boxed.inj (Mark.value.inj h))
  | string, _, _, h => by rw [hash, hash, Token.text.inj (Mark.value.inj h)]
  | object, _, _, h => by rw [hash, hash, Mark.identity.inj h]
  | pointer _, _, _, h => by rw [hash, hash, Mark.identity.inj h]
  | key, v, w, h => by
    have hh : s.hashCode v = s.hashCode w := Shape.hash_eq_of_token_eq (Mark.value.inj h)
    rw [hash, hash, Store.keyHash, Store.keyHash, hh]
  | option _, none, none, _ => rfl
  | option e, some v, some w, h => by
    rw [hash, hash, hash_eq_of_mark_eq s e v w (Mark.present.inj h)]

/-- An element has one mark in all states in which the objects that it holds live. -/
theorem mark_eq_of_precedes (h : s.Precedes t) (hs : s.Sound os) (ht : t.Sound os') :
    (e : ElementType) → (v : e.Value) → s.SafeAll (e.owned v) → t.SafeAll (e.owned v) →
      e.mark t v = e.mark s v
  | scalar _, _, _, _ | string, _, _, _ | object, _, _, _ | pointer _, _, _, _ => rfl
  | key, v, hv, hv' => by
    have hm : v ∈ [v] := List.mem_singleton_self v
    rw [mark, mark, h.token_eq hs ht (hv v hm) (hv' v hm)]
  | option _, none, _, _ => rfl
  | option e, some v, hv, hv' => by
    rw [mark, mark, mark_eq_of_precedes h hs ht e v hv hv']

theorem hash_eq_of_precedes (h : s.Precedes t) (hs : s.Sound os) (ht : t.Sound os') :
    (e : ElementType) → (v : e.Value) → s.SafeAll (e.owned v) → t.SafeAll (e.owned v) →
      e.hash t v = e.hash s v
  | scalar _, _, _, _ | string, _, _, _ | object, _, _, _ | pointer _, _, _, _ => rfl
  | key, v, hv, hv' => by
    have hm : v ∈ [v] := List.mem_singleton_self v
    rw [hash, hash, Store.keyHash, Store.keyHash, h.hashCode_eq hs ht (hv v hm) (hv' v hm)]
  | option _, none, _, _ => rfl
  | option e, some v, hv, hv' => by
    rw [hash, hash, hash_eq_of_precedes h hs ht e v hv hv']

end ElementType

end CountedObjects
