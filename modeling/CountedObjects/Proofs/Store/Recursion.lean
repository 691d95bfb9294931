import CountedObjects.Proofs.Store.Equality
import Mathlib.Data.List.Cycle
import Mathlib.Logic.Relation

/-! Hash, text and equality of a pair ask its key and its value for theirs. The recursion ends
though objects may own each other in cycles: no cycle is made of pairs, as a pair is younger than
its parts, and no other object asks the objects that it holds. -/
namespace CountedObjects

open Relation

/-- Equality as an object decides it that is no pair. -/
def Shape.same : Shape → Shape → Bool
  | null, null => true
  | type d, type e => d.id == e.id
  | boxed v, boxed w => v.same w
  | text x, text y => x == y
  | enumValue d m, enumValue e n => d == e && m == n
  | entity i _, entity j _ => i == j
  | _, _ => false

namespace Store

def pair? (s : Store) (h : Handle) : Option (Handle × Handle) :=
  match s.body? h with
  | some (.pair k v) => some (k, v)
  | _ => none

/-- What an object shows of itself alone. A pair shows no more than that it is one. -/
def leaf (s : Store) (h : Handle) : Shape :=
  match h with
  | .null => .null
  | .type d => .type d
  | .object id =>
    match s.find? id with
    | none => .null
    | some c =>
      match c.body with
      | .boxed v => .boxed v
      | .text x => .text x
      | .enumValue d n => .enumValue d n
      | .pair _ _ => .pair .null .null
      | _ => .entity id c.reported

/-- The second handle is the key or the value of the pair behind the first. -/
def HasPart (s : Store) (a b : Handle) : Prop := ∃ k v, s.pair? a = some (k, v) ∧ (b = k ∨ b = v)

/-- How a function of objects is evaluated that joins what it gives for the key and the value of a
pair, with no guard against going round in a circle. The list has the handles that are looked at. -/
inductive Evaluates {α : Type} (s : Store) (own : Shape → α) (join : α → α → α) :
    Handle → List Handle → α → Prop
  | own {h} (hp : s.pair? h = none) : Evaluates s own join h [h] (own (s.leaf h))
  | pair {h k v ks vs x y} (hp : s.pair? h = some (k, v)) (hk : Evaluates s own join k ks x)
      (hv : Evaluates s own join v vs y) : Evaluates s own join h (h :: ks ++ vs) (join x y)

/-- How the hash of an object is computed. -/
def Hashes (s : Store) : Handle → List Handle → UInt64 → Prop :=
  s.Evaluates Shape.hash fun k v => Hashing.rotateLeft k 5 ^^^ v

/-- How the text of an object is written. -/
def Writes (s : Store) : Handle → List Handle → Result String → Prop :=
  s.Evaluates Shape.display fun k v => do return "[" ++ (← k) ++ ", " ++ (← v) ++ "]"

/-- How two objects are compared, with no guard either. Values of two pairs are compared only if
their keys are equal. The list has the handles that are looked at together. -/
inductive Compares (s : Store) : Handle → Handle → List (Handle × Handle) → Bool → Prop
  | own {a b} (ha : s.pair? a = none) : Compares s a b [(a, b)] ((s.leaf a).same (s.leaf b))
  | other {a b k v} (ha : s.pair? a = some (k, v)) (hb : s.pair? b = none) :
      Compares s a b [(a, b)] false
  | key {a b k v l w ps} (ha : s.pair? a = some (k, v)) (hb : s.pair? b = some (l, w))
      (hk : Compares s k l ps false) : Compares s a b ((a, b) :: ps) false
  | value {a b k v l w ps qs r} (ha : s.pair? a = some (k, v)) (hb : s.pair? b = some (l, w))
      (hk : Compares s k l ps true) (hv : Compares s v w qs r) :
      Compares s a b ((a, b) :: ps ++ qs) r

variable {s t : Store} {os : List Handle} {a b h : Handle} {i j id : Nat} {c : Cell}
  {α : Type} {own : Shape → α} {join : α → α → α} {hs ks : List Handle} {x y : α}

theorem pair?_eq_some {k v : Handle} :
    s.pair? h = some (k, v) ↔ s.body? h = some (.pair k v) := by
  unfold pair?
  split
  · next l w hb => simp [hb]
  · next hne =>
    constructor
    · intro hf
      cases hf
    · intro hb
      exact (hne k v hb).elim

/-! Parts of pairs. -/

theorem Ordered.rank_lt_of_hasPart (ho : s.Ordered) (hp : s.HasPart a b) : b.rank < a.rank := by
  obtain ⟨k, v, hkv, hb⟩ := hp
  cases a with
  | object i =>
    have hr := ho.rank_of_pair (pair?_eq_some.mp hkv)
    have hi : b.rank ≤ i := by
      rcases hb with rfl | rfl
      · exact hr _ (by simp)
      · exact hr _ (by simp)
    exact Nat.lt_succ_of_le hi
  | _ => cases hkv

theorem Ordered.rank_lt_of_pair (ho : s.Ordered) {k v : Handle} (hp : s.pair? a = some (k, v)) :
    k.rank < a.rank ∧ v.rank < a.rank :=
  ⟨ho.rank_lt_of_hasPart ⟨k, v, hp, .inl rfl⟩, ho.rank_lt_of_hasPart ⟨k, v, hp, .inr rfl⟩⟩

/-- No pair is a part of itself or of its parts, however deep. -/
theorem Ordered.hasPart_acyclic (ho : s.Ordered) {c : Cycle Handle} (hc : c.Chain s.HasPart) :
    c = .nil := by
  have hdown : c.Chain fun a b => b.rank < a.rank := hc.imp fun _ _ => ho.rank_lt_of_hasPart
  have hmap : (c.map Handle.rank).Chain (· > ·) := (Cycle.chain_map Handle.rank).mpr hdown
  exact (Cycle.map_eq_nil Handle.rank c).mp hmap.eq_nil_of_irrefl

/-- What an object holds is older than the object, unless the object is a collection. -/
theorem Ordered.lt_of_owns (ho : s.Ordered) (hi : s.contents? (.object i) = none)
    (hij : s.Owns i j) : j < i := by
  obtain ⟨c, hc, hj⟩ := hij
  have hparts : c.body.owned = c.body.parts := by
    rw [contents?, body?_object hc] at hi
    cases hx : c.body with
    | collection x =>
      rw [hx] at hi
      cases hi
    | _ => rfl
  have hrank := ho i c hc (.object j) (hparts ▸ hj)
  simp only [Handle.rank] at hrank
  omega

theorem Ordered.exists_collection (ho : s.Ordered) {c : Cycle Nat} (hc : c.Chain s.Owns)
    (hne : c ≠ .nil) : ∃ i ∈ c, (s.contents? (.object i)).isSome := by
  by_contra hn
  have hnone : ∀ i ∈ c, s.contents? (.object i) = none := by
    intro i hi
    by_contra hsome
    exact hn ⟨i, hi, Option.isSome_iff_ne_none.mpr hsome⟩
  have hdown : c.Chain (· > ·) := by
    induction c with
    | nil => exact absurd rfl hne
    | cons i l =>
      rw [Cycle.chain_coe_cons] at hc ⊢
      refine hc.imp_of_mem_imp fun a b ha _ hab => ho.lt_of_owns (hnone a ?_) hab
      simpa [or_comm] using ha
  exact hne hdown.eq_nil_of_irrefl

/-! Evaluation. It ends, as parts of pairs are older. -/

theorem shape_of_pair?_eq_none (hp : s.pair? h = none) : s.shape h = s.leaf h := by
  cases h with
  | null => rw [shape, leaf]
  | type d => rw [shape, leaf]
  | object id =>
    rw [shape, leaf]
    cases hc : s.find? id with
    | none => rfl
    | some c =>
      have hb := body?_object hc
      cases hx : c.body with
      | pair k v =>
        rw [hx] at hb
        rw [pair?_eq_some.mpr hb] at hp
        cases hp
      | _ => simp only [hx]

theorem Ordered.shape_pair (ho : s.Ordered) {k v : Handle} (hp : s.pair? h = some (k, v)) :
    s.shape h = .pair (s.shape k) (s.shape v) := by
  have hb := pair?_eq_some.mp hp
  cases h with
  | object id =>
    obtain ⟨c, hc, hx⟩ := Option.map_eq_some_iff.mp hb
    rw [ho.shape_object hc, hx]
  | _ => cases hb

/-- A function of shapes that goes through pairs as `join` says is evaluated on every object. -/
theorem Ordered.evaluates (ho : s.Ordered)
    (hown : ∀ k v, own (.pair k v) = join (own k) (own v)) (h : Handle) :
    ∃ hs, s.Evaluates own join h hs (own (s.shape h)) := by
  induction hn : h.rank using Nat.strongRecOn generalizing h with
  | _ n ih =>
  cases hp : s.pair? h with
  | none =>
    rw [shape_of_pair?_eq_none hp]
    exact ⟨[h], .own hp⟩
  | some kv =>
    obtain ⟨k, v⟩ := kv
    obtain ⟨hk, hv⟩ := ho.rank_lt_of_pair hp
    obtain ⟨ks, hks⟩ := ih _ (hn ▸ hk) k rfl
    obtain ⟨vs, hvs⟩ := ih _ (hn ▸ hv) v rfl
    rw [ho.shape_pair hp, hown]
    exact ⟨h :: ks ++ vs, .pair hp hks hvs⟩

namespace Evaluates

theorem unique (hx : s.Evaluates own join h hs x) (hy : s.Evaluates own join h ks y) :
    ks = hs ∧ y = x := by
  induction hx generalizing ks y with
  | own hp =>
    cases hy with
    | own _ => exact ⟨rfl, rfl⟩
    | pair hp' _ _ => cases hp.symm.trans hp'
  | pair hp _ _ ihk ihv =>
    cases hy with
    | own hp' => cases hp.symm.trans hp'
    | pair hp' hk hv =>
      cases hp.symm.trans hp'
      obtain ⟨rfl, rfl⟩ := ihk hk
      obtain ⟨rfl, rfl⟩ := ihv hv
      exact ⟨rfl, rfl⟩

/-- Only what lies within a pair is looked at. -/
theorem reached (hx : s.Evaluates own join h hs x) : ∀ b ∈ hs, ReflTransGen s.HasPart h b := by
  induction hx with
  | own _ =>
    intro b hb
    rw [List.mem_singleton.mp hb]
  | @pair h k v ks vs x y hp _ _ ihk ihv =>
    intro b hb
    rw [List.cons_append, List.mem_cons, List.mem_append] at hb
    rcases hb with rfl | hb | hb
    · exact .refl
    · exact .head ⟨k, v, hp, .inl rfl⟩ (ihk b hb)
    · exact .head ⟨k, v, hp, .inr rfl⟩ (ihv b hb)

theorem congr (hp : t.pair? = s.pair?) (hl : t.leaf = s.leaf) (hx : s.Evaluates own join h hs x) :
    t.Evaluates own join h hs x := by
  induction hx with
  | own hn =>
    rw [← hl]
    exact .own (hp ▸ hn)
  | pair hn _ _ ihk ihv => exact .pair (hp ▸ hn) ihk ihv

end Evaluates

/-! Comparison. -/

theorem leaf_object (hc : s.find? id = some c) :
    s.leaf (.object id) = match c.body with
      | .boxed v => .boxed v
      | .text x => .text x
      | .enumValue d n => .enumValue d n
      | .pair _ _ => .pair .null .null
      | _ => .entity id c.reported := by
  rw [leaf, hc]

theorem eq_object_of_leaf {t : TypeHandle} (hl : s.leaf b = .entity j t) : b = .object j := by
  cases b with
  | object id =>
    rw [leaf] at hl
    split at hl
    · cases hl
    · split at hl <;> cases hl
      rfl
  | _ => cases hl

theorem same_entity_leaf {t u : TypeHandle} (ha : s.leaf (.object i) = .entity i t) (b : Handle) :
    (Shape.entity i u).same (s.leaf b) = true ↔ b = .object i := by
  constructor
  · intro hs
    cases hl : s.leaf b with
    | entity j v =>
      rw [hl, Shape.same, beq_iff_eq] at hs
      rw [eq_object_of_leaf hl, hs]
    | _ =>
      rw [hl] at hs
      cases hs
  · rintro rfl
    rw [ha, Shape.same, beq_self_eq_true]

/-- An object that is no pair is compared by what both objects show of themselves. -/
theorem equals_of_pair?_eq_none (hp : s.pair? a = none) (ha : s.Safe a) (hb : s.Safe b) :
    s.equals a b = (s.leaf a).same (s.leaf b) := by
  have of_object : ∀ j, b = .object j → ∃ d, s.find? j = some d := fun j e => hb j e
  cases a with
  | null =>
    rw [equals.eq_def]
    cases b with
    | object j =>
      obtain ⟨d, hd⟩ := of_object j rfl
      rw [leaf_object hd]
      cases d.body <;> rfl
    | _ => rfl
  | type e =>
    rw [equals_eq_objectEquals Handle.noConfusion, objectEquals.eq_def]
    cases b with
    | object j =>
      obtain ⟨d, hd⟩ := of_object j rfl
      rw [leaf_object hd]
      cases d.body <;> rfl
    | _ => rfl
  | object i =>
    obtain ⟨c, hc⟩ := ha.isLive
    have hbody := body?_object hc
    have hleaf := leaf_object hc
    rw [equals_eq_objectEquals Handle.noConfusion]
    cases hx : c.body with
    | pair k v =>
      rw [hx] at hbody
      rw [pair?_eq_some.mpr hbody] at hp
      cases hp
    | boxed _ | text _ | enumValue _ _ =>
      rw [hx] at hbody hleaf
      rw [hleaf, objectEquals.eq_def]
      simp only [hbody]
      cases b with
      | object j =>
        obtain ⟨d, hd⟩ := of_object j rfl
        rw [body?_object hd, leaf_object hd]
        cases d.body <;> rfl
      | _ => rfl
    | _ =>
      rw [hx] at hbody hleaf
      rw [hleaf, Bool.eq_iff_iff, objectEquals_entity hbody trivial]
      exact (same_entity_leaf hleaf b).symm

theorem Ordered.equals_eq_of_pair (ho : s.Ordered) {k v l w : Handle}
    (ha : s.pair? a = some (k, v)) (hb : s.pair? b = some (l, w)) :
    s.equals a b = (s.equals k l && s.equals v w) := by
  rw [Bool.eq_iff_iff, Bool.and_eq_true]
  exact ho.equals_pair (pair?_eq_some.mp ha) (pair?_eq_some.mp hb)

theorem Ordered.equals_eq_false (ho : s.Ordered) {k v : Handle}
    (ha : s.pair? a = some (k, v)) (hb : s.pair? b = none) : s.equals a b = false := by
  obtain ⟨id, rfl, he⟩ := equals_of_body? (pair?_eq_some.mp ha) b
  rw [he, ← Bool.not_eq_true, ho.objectEquals_pair (pair?_eq_some.mp ha)]
  intro hlw
  obtain ⟨l, w, hlw, -⟩ := hlw
  rw [pair?_eq_some.mpr hlw] at hb
  cases hb

theorem Ordered.compares (ho : s.Ordered)
    (hparts : ∀ a k v, s.pair? a = some (k, v) → s.Safe k ∧ s.Safe v) (ha : s.Safe a)
    (hb : s.Safe b) : ∃ ps, s.Compares a b ps (s.equals a b) := by
  induction hn : a.rank using Nat.strongRecOn generalizing a b with
  | _ n ih =>
  cases hp : s.pair? a with
  | none =>
    rw [equals_of_pair?_eq_none hp ha hb]
    exact ⟨_, .own hp⟩
  | some kv =>
    obtain ⟨k, v⟩ := kv
    cases hq : s.pair? b with
    | none =>
      rw [ho.equals_eq_false hp hq]
      exact ⟨_, .other hp hq⟩
    | some lw =>
      obtain ⟨l, w⟩ := lw
      obtain ⟨hk, hv⟩ := ho.rank_lt_of_pair hp
      obtain ⟨sk, sv⟩ := hparts a k v hp
      obtain ⟨sl, sw⟩ := hparts b l w hq
      obtain ⟨ps, hps⟩ := ih _ (hn ▸ hk) sk sl rfl
      obtain ⟨qs, hqs⟩ := ih _ (hn ▸ hv) sv sw rfl
      rw [ho.equals_eq_of_pair hp hq]
      cases hkl : s.equals k l with
      | false => exact ⟨_, .key hp hq (hkl ▸ hps)⟩
      | true => exact ⟨_, .value hp hq (hkl ▸ hps) hqs⟩

namespace Compares

variable {ps qs : List (Handle × Handle)} {r q : Bool}

theorem unique (hr : s.Compares a b ps r) (hq : s.Compares a b qs q) : qs = ps ∧ q = r := by
  induction hr generalizing qs q with
  | own ha =>
    cases hq with
    | own _ => exact ⟨rfl, rfl⟩
    | other ha' _ | key ha' _ _ | value ha' _ _ _ => cases ha.symm.trans ha'
  | other ha hb =>
    cases hq with
    | own ha' => cases ha.symm.trans ha'
    | other _ _ => exact ⟨rfl, rfl⟩
    | key _ hb' _ | value _ hb' _ _ => cases hb.symm.trans hb'
  | key ha hb _ ih =>
    cases hq with
    | own ha' => cases ha.symm.trans ha'
    | other _ hb' => cases hb.symm.trans hb'
    | key ha' hb' hk | value ha' hb' hk _ =>
      cases ha.symm.trans ha'
      cases hb.symm.trans hb'
      obtain ⟨rfl, e⟩ := ih hk
      first | exact ⟨rfl, rfl⟩ | cases e
  | value ha hb _ _ ihk ihv =>
    cases hq with
    | own ha' => cases ha.symm.trans ha'
    | other _ hb' => cases hb.symm.trans hb'
    | key ha' hb' hk =>
      cases ha.symm.trans ha'
      cases hb.symm.trans hb'
      cases (ihk hk).2
    | value ha' hb' hk hv =>
      cases ha.symm.trans ha'
      cases hb.symm.trans hb'
      obtain ⟨rfl, -⟩ := ihk hk
      obtain ⟨rfl, rfl⟩ := ihv hv
      exact ⟨rfl, rfl⟩

theorem reached (hr : s.Compares a b ps r) :
    ∀ p ∈ ps, ReflTransGen s.HasPart a p.1 ∧ ReflTransGen s.HasPart b p.2 := by
  induction hr with
  | own _ | other _ _ =>
    intro p hp
    rw [List.mem_singleton.mp hp]
    exact ⟨.refl, .refl⟩
  | @key a b k v l w ps ha hb _ ih =>
    intro p hp
    rcases List.mem_cons.mp hp with rfl | hp
    · exact ⟨.refl, .refl⟩
    · obtain ⟨hk, hl⟩ := ih p hp
      exact ⟨.head ⟨k, v, ha, .inl rfl⟩ hk, .head ⟨l, w, hb, .inl rfl⟩ hl⟩
  | @value a b k v l w ps qs r ha hb _ _ ihk ihv =>
    intro p hp
    rw [List.cons_append, List.mem_cons, List.mem_append] at hp
    rcases hp with rfl | hp | hp
    · exact ⟨.refl, .refl⟩
    · obtain ⟨hk, hl⟩ := ihk p hp
      exact ⟨.head ⟨k, v, ha, .inl rfl⟩ hk, .head ⟨l, w, hb, .inl rfl⟩ hl⟩
    · obtain ⟨hv, hw⟩ := ihv p hp
      exact ⟨.head ⟨k, v, ha, .inr rfl⟩ hv, .head ⟨l, w, hb, .inr rfl⟩ hw⟩

theorem congr (hp : t.pair? = s.pair?) (hl : t.leaf = s.leaf) (hr : s.Compares a b ps r) :
    t.Compares a b ps r := by
  induction hr with
  | own ha =>
    rw [← hl]
    exact .own (hp ▸ ha)
  | other ha hb => exact .other (hp ▸ ha) (hp ▸ hb)
  | key ha hb _ ih => exact .key (hp ▸ ha) (hp ▸ hb) ih
  | value ha hb _ _ ihk ihv => exact .value (hp ▸ ha) (hp ▸ hb) ihk ihv

end Compares

theorem Sound.safe_parts (h : s.Sound os) {k v : Handle} (ha : s.pair? a = some (k, v)) :
    s.Safe k ∧ s.Safe v :=
  safeAll_pair.mp (h.safe_of_pair (pair?_eq_some.mp ha))

theorem Sound.compares (h : s.Sound os) (ha : s.Safe a) (hb : s.Safe b) :
    ∃ ps, s.Compares a b ps (s.equals a b) :=
  h.ordered.compares (fun _ _ _ => h.safe_parts) ha hb

/-! What collections hold is of no account. -/

section Elements

variable {old : Contents} (hc : s.find? id = some c) (hb : c.body = .collection old) (z : Contents)

include hc

theorem find?_setContents (j : Nat) : (s.setContents id z).find? j =
    if j = id then some { c with body := .collection z } else s.find? j := by
  rw [setContents_eq_put hc, find?_put hc]

theorem safe_setContents (ha : s.Safe a) : (s.setContents id z).Safe a := by
  intro j e
  obtain ⟨d, hd⟩ := ha j e
  rw [IsLive, find?_setContents hc]
  split
  · exact ⟨_, rfl⟩
  · exact ⟨d, hd⟩

theorem Ordered.setContents (ho : s.Ordered) : (s.setContents id z).Ordered := by
  intro j d hd
  rw [find?_setContents hc] at hd
  split at hd
  · cases hd
    simp [Body.parts]
  · exact ho j d hd

include hb

theorem pair?_setContents : (s.setContents id z).pair? = s.pair? := by
  funext h
  cases h with
  | object j =>
    rw [pair?, pair?, body?, body?, find?_setContents hc]
    by_cases hj : j = id
    · simp [hj, hc, hb]
    · rw [if_neg hj]
  | _ => rfl

theorem leaf_setContents : (s.setContents id z).leaf = s.leaf := by
  funext h
  cases h with
  | object j =>
    rw [leaf, leaf, find?_setContents hc]
    by_cases hj : j = id
    · simp [hj, hc, hb, Cell.reported]
    · rw [if_neg hj]
  | _ => rfl

/-- Evaluation in the one store is evaluation in the other. -/
theorem Ordered.shape_setContents (ho : s.Ordered) (h : Handle) :
    (s.setContents id z).shape h = s.shape h := by
  have hevaluates : ∀ t : Store, t.Ordered →
      ∃ hs, t.Evaluates (fun y => y) Shape.pair h hs (t.shape h) :=
    fun t ht => ht.evaluates (fun _ _ => rfl) h
  obtain ⟨hs, hev⟩ := hevaluates s ho
  obtain ⟨ks, hev'⟩ := hevaluates _ (ho.setContents hc z)
  have hsame := hev.congr (pair?_setContents hc hb z) (leaf_setContents hc hb z)
  exact (hsame.unique hev').2

theorem Sound.equals_setContents (h : s.Sound os) (ha : s.Safe a) (ha' : s.Safe b) :
    (s.setContents id z).equals a b = s.equals a b := by
  have hp := pair?_setContents hc hb z
  have hparts : ∀ a k v, (s.setContents id z).pair? a = some (k, v) →
      (s.setContents id z).Safe k ∧ (s.setContents id z).Safe v := by
    intro a k v hkv
    obtain ⟨hk, hv⟩ := h.safe_parts (hp ▸ hkv)
    exact ⟨safe_setContents hc z hk, safe_setContents hc z hv⟩
  obtain ⟨ps, hps⟩ := h.compares ha ha'
  obtain ⟨qs, hqs⟩ := (h.ordered.setContents hc z).compares hparts (safe_setContents hc z ha)
    (safe_setContents hc z ha')
  have hsame := hps.congr hp (leaf_setContents hc hb z)
  exact (hsame.unique hqs).2

end Elements

/-- A recursion from an object into pairs that ends: it has the given result and no other, and looks
at the object itself and at what lies within it as part of a pair, or of a pair in it. -/
def Ends (s : Store) (h : Handle) (run : List Handle → α → Prop) (x : α) : Prop :=
  ∃ hs, (∀ ks y, run ks y ↔ ks = hs ∧ y = x) ∧ ∀ b ∈ hs, ReflTransGen s.HasPart h b

theorem Ordered.ends (ho : s.Ordered) (hown : ∀ k v, own (.pair k v) = join (own k) (own v))
    (h : Handle) : s.Ends h (s.Evaluates own join h) (own (s.shape h)) := by
  obtain ⟨hs, hev⟩ := ho.evaluates hown h
  refine ⟨hs, fun ks y => ⟨hev.unique, ?_⟩, hev.reached⟩
  rintro ⟨rfl, rfl⟩
  exact hev

/-- The laws of the recursion into pairs. The parts of pairs are older, so pairs form no cycle, and
where objects own each other in a cycle there is a collection. Hash and text of every object and
equality of every two are found in finitely many steps, none of which looks at an element of a
collection, so they stay as they are whatever a collection is given to hold. -/
structure Recurses (s : Store) : Prop where
  older : ∀ i j, s.HasPart (.object i) (.object j) → j < i
  acyclic : ∀ c : Cycle Handle, c.Chain s.HasPart → c = .nil
  collection : ∀ c : Cycle Nat, c.Chain s.Owns → c ≠ .nil →
    ∃ i ∈ c, (s.contents? (.object i)).isSome
  hash : ∀ h, s.Ends h (s.Hashes h) (s.hashCode h)
  text : ∀ h, s.Ends h (s.Writes h) (s.display h)
  equals : ∀ a b, s.Safe a → s.Safe b →
    ∃ ps, (∀ qs r, s.Compares a b qs r ↔ qs = ps ∧ r = s.equals a b) ∧
      ∀ p ∈ ps, ReflTransGen s.HasPart a p.1 ∧ ReflTransGen s.HasPart b p.2
  elements : ∀ id x, (s.contents? (.object id)).isSome →
    (∀ h, (s.setContents id x).hashCode h = s.hashCode h ∧
      (s.setContents id x).display h = s.display h) ∧
    ∀ a b, s.Safe a → s.Safe b → (s.setContents id x).equals a b = s.equals a b

theorem Sound.recurses (h : s.Sound os) : s.Recurses where
  older i j hij := by
    have hr := h.ordered.rank_lt_of_hasPart hij
    simp only [Handle.rank] at hr
    omega
  acyclic _ hc := h.ordered.hasPart_acyclic hc
  collection _ hc hne := h.ordered.exists_collection hc hne
  hash a := h.ordered.ends (fun _ _ => rfl) a
  text a := h.ordered.ends (fun _ _ => rfl) a
  equals a b ha hb := by
    obtain ⟨ps, hps⟩ := h.compares ha hb
    refine ⟨ps, fun qs r => ⟨hps.unique, ?_⟩, hps.reached⟩
    rintro ⟨rfl, rfl⟩
    exact hps
  elements id x hid := by
    obtain ⟨old, hold⟩ := Option.isSome_iff_exists.mp hid
    obtain ⟨c, hc, hb⟩ := contents?_object.mp hold
    refine ⟨fun a => ?_, fun a b ha hb' => h.equals_setContents hc hb x ha hb'⟩
    have hshape := h.ordered.shape_setContents hc hb x a
    exact ⟨congrArg Shape.hash hshape, congrArg Shape.display hshape⟩

end Store

end CountedObjects
