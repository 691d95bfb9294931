import CountedObjects.Proofs.Scalar
import CountedObjects.Proofs.Store.Soundness

/-! Tokens of objects. A token is what there is of an object for equality to tell it apart from
others; the hash of an object is that of its token. -/
namespace CountedObjects

inductive Token
  | null
  | type (i : TypeId)
  | boxed (v : Scalar)
  | text (s : String)
  | enumValue (d : Descriptor) (ordinal : Int32)
  | pair (key value : Token)
  | entity (id : Nat)
  deriving DecidableEq

namespace Token

def HasNaN : Token → Prop
  | boxed v => v.isNaN = true
  | pair k v => k.HasNaN ∨ v.HasNaN
  | _ => False

instance decidableHasNaN : (x : Token) → Decidable x.HasNaN
  | boxed v => inferInstanceAs (Decidable (v.isNaN = true))
  | pair k v =>
    have := decidableHasNaN k
    have := decidableHasNaN v
    inferInstanceAs (Decidable (k.HasNaN ∨ v.HasNaN))
  | null | type _ | text _ | enumValue .. | entity _ => inferInstanceAs (Decidable False)

end Token

namespace Shape

def token : Shape → Token
  | null => .null
  | type d => .type d.id
  | boxed v => .boxed v.canonical
  | text s => .text s
  | enumValue d n => .enumValue d n
  | pair k v => .pair k.token v.token
  | entity i _ => .entity i

theorem hash_eq_of_token_eq {x y : Shape} (h : x.token = y.token) : x.hash = y.hash := by
  induction x generalizing y with
  | boxed v =>
    cases y with
    | boxed w => exact Scalar.hash_eq_of_canonical_eq (Token.boxed.inj h)
    | _ => cases h
  | pair k v ihk ihv =>
    cases y with
    | pair l w =>
      obtain ⟨hk, hv⟩ := Token.pair.inj h
      rw [hash, hash, ihk hk, ihv hv]
    | _ => cases h
  | type d =>
    cases y with
    | type e => rw [hash, hash, Token.type.inj h]
    | _ => cases h
  | _ =>
    cases y <;> cases h
    rfl

end Shape

namespace Store

def token (s : Store) (h : Handle) : Token := (s.shape h).token

end Store

/-- The token of an object with the given number and state. -/
def Body.token (s : Store) (id : Nat) : Body → Token
  | boxed v => .boxed v.canonical
  | text x => .text x
  | enumValue d n => .enumValue d n
  | pair k v => .pair (s.token k) (s.token v)
  | _ => .entity id

/-- What a handle with a token points to. -/
def Token.Denotes (s : Store) (a : Handle) : Token → Prop
  | null => a = .null
  | type i => ∃ d, a = .type d ∧ d.id = i
  | boxed v => ∃ w, s.body? a = some (.boxed w) ∧ w.canonical = v
  | text x => s.body? a = some (.text x)
  | enumValue d n => s.body? a = some (.enumValue d n)
  | pair x y => ∃ k v, s.body? a = some (.pair k v) ∧ s.token k = x ∧ s.token v = y
  | entity id => a = .object id

namespace Store

variable {s : Store} {id : Nat} {a : Handle} {c : Cell}

@[simp] theorem token_null (s : Store) : s.token .null = .null := by
  rw [token, shape]
  rfl

@[simp] theorem token_type (s : Store) (d : Descriptor) : s.token (.type d) = .type d.id := by
  rw [token, shape]
  rfl

theorem body?_object (hc : s.find? id = some c) : s.body? (.object id) = some c.body := by
  rw [body?, hc]
  rfl

/-- The parts of a pair are older than the pair, so they are looked at. -/
theorem Ordered.shape_object (ho : s.Ordered) (hc : s.find? id = some c) :
    s.shape (.object id) = match c.body with
      | .boxed v => .boxed v
      | .text x => .text x
      | .enumValue d n => .enumValue d n
      | .pair k v => .pair (s.shape k) (s.shape v)
      | _ => .entity id c.reported := by
  obtain ⟨t, r, b⟩ := c
  rw [shape, hc]
  cases b with
  | pair k v =>
    have hk : k.rank ≤ id := ho id _ hc k (by simp [Body.parts])
    have hv : v.rank ≤ id := ho id _ hc v (by simp [Body.parts])
    simp only [hk, hv, if_true]
  | _ => rfl

theorem Ordered.token_object (ho : s.Ordered) (hc : s.find? id = some c) :
    s.token (.object id) = c.body.token s id := by
  rw [token, ho.shape_object hc]
  cases c.body <;> rfl

theorem Ordered.token_of_body? (ho : s.Ordered) {x : Body} (hx : s.body? a = some x) :
    ∃ id, a = .object id ∧ s.token a = x.token s id := by
  cases a with
  | null => cases hx
  | type d => cases hx
  | object id =>
    obtain ⟨c, hc, rfl⟩ := Option.map_eq_some_iff.mp hx
    exact ⟨id, rfl, ho.token_object hc⟩

/-- A token tells what a handle points to. -/
theorem Ordered.denotes (ho : s.Ordered) (ha : s.Safe a) {x : Token} (hx : x = s.token a) :
    x.Denotes s a := by
  subst hx
  cases a with
  | null =>
    rw [token_null]
    rfl
  | type d =>
    rw [token_type]
    exact ⟨d, rfl, rfl⟩
  | object id =>
    obtain ⟨c, hc⟩ := ha.isLive
    have hb := body?_object hc
    rw [ho.token_object hc]
    cases hx : c.body with
    | boxed v => exact ⟨v, by rw [hb, hx], rfl⟩
    | text x => exact hb.trans (by rw [hx])
    | enumValue d n => exact hb.trans (by rw [hx])
    | pair k v => exact ⟨k, v, by rw [hb, hx], rfl, rfl⟩
    | _ => rfl

end Store

end CountedObjects
