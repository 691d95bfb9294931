import CountedObjects.Proofs.Collection.Lookup

/-! Lists of keys with their values that are searched for an equal key from the front to the back.
A table finds, changes and loses what such a list does. -/
namespace CountedObjects

/-- A key with its value. -/
def Slot.pair {κ ν : Type} (e : Slot κ ν) : κ × ν := (e.key, e.value)

namespace Pairs

variable {κ ν : Type} {same : κ → κ → Bool} {k : κ} {v : ν} {ps : List (κ × ν)}

def found (same : κ → κ → Bool) (k : κ) (ps : List (κ × ν)) : Option ν :=
  (ps.find? fun p => same k p.1).map (·.2)

/-- Gives a value to the pair of an equal key, which stays, or adds a last pair. -/
def give (same : κ → κ → Bool) (k : κ) (v : ν) : List (κ × ν) → List (κ × ν)
  | [] => [(k, v)]
  | p :: ps => if same k p.1 then (p.1, v) :: ps else p :: give same k v ps

def erase (same : κ → κ → Bool) (k : κ) (ps : List (κ × ν)) : List (κ × ν) :=
  ps.eraseP fun p => same k p.1

/-- The handles that keys and values hold. -/
def owned (kt vt : ElementType) (ps : List (kt.Value × vt.Value)) : List Handle :=
  ps.flatMap fun p => kt.owned p.1 ++ vt.owned p.2

theorem found_cons (same : κ → κ → Bool) (k : κ) (p : κ × ν) (ps : List (κ × ν)) :
    found same k (p :: ps) = if same k p.1 then some p.2 else found same k ps := by
  rw [found, found, List.find?_cons]
  cases same k p.1 <;> rfl

theorem give_of_found_eq_none (h : found same k ps = none) (v : ν) :
    give same k v ps = ps ++ [(k, v)] := by
  induction ps with
  | nil => rfl
  | cons p ps ih =>
    rw [found_cons] at h
    rw [give]
    cases hp : same k p.1 with
    | true => rw [hp, if_pos rfl] at h; cases h
    | false =>
      rw [hp, if_neg Bool.false_ne_true] at h
      rw [if_neg Bool.false_ne_true, ih h]
      rfl

/-- Where an equal key is found the keys stay as they are. -/
theorem keys_give_of_found (h : (found same k ps).isSome = true) (v : ν) :
    (give same k v ps).map Prod.fst = ps.map Prod.fst := by
  induction ps with
  | nil => cases h
  | cons p ps ih =>
    rw [found_cons] at h
    rw [give]
    cases hp : same k p.1 with
    | true => rfl
    | false =>
      rw [hp, if_neg Bool.false_ne_true] at h
      exact congrArg (p.1 :: ·) (ih h)

theorem mem_give {p : κ × ν} (h : p ∈ give same k v ps) : p.2 = v ∨ p ∈ ps := by
  induction ps with
  | nil => exact .inl (by rw [List.mem_singleton.mp h])
  | cons p' ps ih =>
    unfold give at h
    split at h
    · rcases List.mem_cons.mp h with rfl | h
      · exact .inl rfl
      · exact .inr (List.mem_cons_of_mem _ h)
    · rcases List.mem_cons.mp h with rfl | h
      · exact .inr (List.mem_cons_self ..)
      · exact (ih h).imp_right (List.mem_cons_of_mem _)

/-- Handles that the value does not hold are not stored more often. -/
theorem count_owned_give_le {kt vt : ElementType} {same : kt.Value → kt.Value → Bool} {k : kt.Value}
    {v : vt.Value} {ps : List (kt.Value × vt.Value)} {x : Handle} (hx : x ∉ vt.owned v)
    (h : (found same k ps).isSome = true) :
    (owned kt vt (give same k v ps)).count x ≤ (owned kt vt ps).count x := by
  induction ps with
  | nil => cases h
  | cons p ps ih =>
    rw [found_cons] at h
    rw [give]
    cases hp : same k p.1 with
    | true =>
      have hv := List.count_eq_zero.mpr hx
      simp only [owned, if_true, List.flatMap_cons, List.count_append]
      omega
    | false =>
      rw [hp, if_neg Bool.false_ne_true] at h
      have hle := ih h
      simp only [owned] at hle
      simp only [owned, Bool.false_eq_true, if_false, List.flatMap_cons, List.count_append]
      omega

/-- Of the handles that are stored anew all are of the value. -/
theorem mem_owned_give {kt vt : ElementType} {same : kt.Value → kt.Value → Bool} {k : kt.Value}
    {v : vt.Value} {ps : List (kt.Value × vt.Value)} {x : Handle}
    (h : (found same k ps).isSome = true) (hm : x ∈ owned kt vt (give same k v ps)) :
    x ∈ vt.owned v ∨ x ∈ owned kt vt ps := by
  obtain ⟨p, hp, hx⟩ := List.mem_flatMap.mp hm
  rcases List.mem_append.mp hx with hx | hx
  · have hkey := List.mem_map_of_mem (f := Prod.fst) hp
    rw [keys_give_of_found h] at hkey
    obtain ⟨p', hp', hkey⟩ := List.mem_map.mp hkey
    exact .inr (List.mem_flatMap.mpr ⟨p', hp', List.mem_append_left _ (hkey ▸ hx)⟩)
  · rcases mem_give hp with hv | hp
    · exact .inl (hv ▸ hx)
    · exact .inr (List.mem_flatMap.mpr ⟨p, hp, List.mem_append_right _ hx⟩)

end Pairs

theorem Contents.owned_dictionary (kt vt : ElementType) (ss : List (Slot kt.Value vt.Value)) :
    (Contents.dictionary kt vt ss).owned = Pairs.owned kt vt (ss.map Slot.pair) := by
  rw [Contents.owned, Pairs.owned, List.flatMap_map]
  rfl

namespace Table

variable {κ ν : Type} {q : Keying κ} {mark : κ → Mark} {K : κ → Prop} {k : κ}
  {t t' : List (Slot κ ν)}

theorem get?_eq_found (hq : q.Marks mark K) (ht : Keyed q K t) (hk : K k) :
    get? q k t = Pairs.found q.same k (t.map Slot.pair) := by
  rw [get?, find?]
  induction t with
  | nil => rfl
  | cons s t ih =>
    obtain ⟨hs, ht⟩ := List.forall_mem_cons.mp ht
    rw [List.map_cons, Pairs.found_cons, List.find?_cons, hq.holds_eq_same hk hs]
    cases hsame : q.same k s.key with
    | true => simp [Slot.pair, hsame]
    | false => simpa [Slot.pair, hsame] using ih ht

theorem contains_eq_isSome_found (hq : q.Marks mark K) (ht : Keyed q K t) (hk : K k) :
    contains q k t = (Pairs.found q.same k (t.map Slot.pair)).isSome := by
  rw [contains_eq_isSome_get?, get?_eq_found hq ht hk]

theorem pairs_insert (hq : q.Marks mark K) (ht : Keyed q K t) (hk : K k) (v : ν) :
    (insert q k v t).map Slot.pair = Pairs.give q.same k v (t.map Slot.pair) := by
  induction t with
  | nil => rfl
  | cons s t ih =>
    obtain ⟨hs, ht⟩ := List.forall_mem_cons.mp ht
    rw [insert, List.map_cons, Pairs.give, hq.holds_eq_same hk hs]
    cases hsame : q.same k s.key with
    | true => simp [Slot.pair, hsame]
    | false => simpa [Slot.pair, hsame] using ih ht

theorem pairs_erase (hq : q.Marks mark K) (ht : Keyed q K t) (hk : K k) :
    (erase q k t).map Slot.pair = Pairs.erase q.same k (t.map Slot.pair) := by
  rw [erase, Pairs.erase]
  induction t with
  | nil => rfl
  | cons s t ih =>
    obtain ⟨hs, ht⟩ := List.forall_mem_cons.mp ht
    rw [List.map_cons, List.eraseP_cons, List.eraseP_cons, hq.holds_eq_same hk hs]
    cases hsame : q.same k s.key with
    | true => simp [Slot.pair, hsame]
    | false => simpa [Slot.pair, hsame] using ih ht

end Table

end CountedObjects
