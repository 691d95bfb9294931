import CountedObjects.Proofs.Collection.Edits
import CountedObjects.Table

/-! Lookups by hash. As equal keys hash alike, a table finds by hash what a search through its keys
one after the other finds, and its entries change as a list of entries would. -/
namespace CountedObjects

variable {κ ν : Type} {q : Keying κ} {mark : κ → Mark} {K : κ → Prop} {k l : κ} {v : ν}
  {s : Slot κ ν} {t : List (Slot κ ν)} {ks : List κ}

/-- Keys with a property are equal as their marks are, and those with one mark hash alike. -/
structure Keying.Marks (q : Keying κ) (mark : κ → Mark) (K : κ → Prop) : Prop where
  same : ∀ k l, K k → K l → q.same k l = (mark k).same (mark l)
  hash : ∀ k l, mark k = mark l → q.hash k = q.hash l

def Slot.entry (mark : κ → Mark) (s : Slot κ ν) : Entry κ ν := ⟨mark s.key, s.key, s.value⟩

/-- The entry of a key alone. -/
def Entry.ofKey (mark : κ → Mark) (k : κ) : Entry κ Unit := ⟨mark k, k, ()⟩

/-- A slot of a key with the property, whose hash is the hash of the key. -/
structure Slot.Keyed (q : Keying κ) (K : κ → Prop) (s : Slot κ ν) : Prop where
  hash : s.hash = q.hash s.key
  key : K s.key

namespace Keying.Marks

/-- The hash keeps no equal key from being found. -/
theorem holds_eq_same (hq : q.Marks mark K) (hk : K k) (hs : s.Keyed q K) :
    s.holds q k = q.same k s.key := by
  rw [Slot.holds, hs.hash]
  cases hsame : q.same k s.key with
  | false => rw [Bool.and_false]
  | true =>
    rw [hq.same k s.key hk hs.key] at hsame
    rw [hq.hash k s.key (Mark.same_iff.mp hsame).2, beq_self_eq_true, Bool.and_true]

theorem holds_eq_answers (hq : q.Marks mark K) (hk : K k) (hs : s.Keyed q K) :
    s.holds q k = (s.entry mark).answers (mark k) := by
  rw [hq.holds_eq_same hk hs, hq.same k s.key hk hs.key]
  rfl

end Keying.Marks

namespace Table

/-- All slots are of keys with the property and have their hashes. -/
def Keyed (q : Keying κ) (K : κ → Prop) (t : List (Slot κ ν)) : Prop := ∀ s ∈ t, s.Keyed q K

def entries (mark : κ → Mark) (t : List (Slot κ ν)) : List (Entry κ ν) := t.map (Slot.entry mark)

theorem keyed_nil : Keyed q K ([] : List (Slot κ ν)) := List.forall_mem_nil _

theorem Keyed.insert (ht : Keyed q K t) (hk : K k) (v : ν) : Keyed q K (insert q k v t) := by
  induction t with
  | nil => exact List.forall_mem_singleton.mpr ⟨rfl, hk⟩
  | cons s t ih =>
    obtain ⟨hs, ht⟩ := List.forall_mem_cons.mp ht
    unfold Table.insert
    split
    · exact List.forall_mem_cons.mpr ⟨⟨hs.hash, hs.key⟩, ht⟩
    · exact List.forall_mem_cons.mpr ⟨hs, ih ht⟩

theorem Keyed.erase (ht : Keyed q K t) (k : κ) : Keyed q K (erase q k t) :=
  fun s hs => ht s (List.mem_of_mem_eraseP hs)

theorem Keyed.insertAll {t : List (Slot κ Unit)} (ht : Keyed q K t) (hks : ∀ k ∈ ks, K k) :
    Keyed q K (insertAll q t ks) := by
  induction ks generalizing t with
  | nil => exact ht
  | cons k ks ih =>
    obtain ⟨hk, hks⟩ := List.forall_mem_cons.mp hks
    exact ih (ht.insert hk ()) hks

theorem Keyed.retain {t : List (Slot κ Unit)} (ht : Keyed q K t) (ks : List κ) :
    Keyed q K (retain q t ks) :=
  fun s hs => ht s (List.mem_filter.mp hs).1

/-! The operations as operations on entries. -/

theorem get?_eq_lookup (hq : q.Marks mark K) (ht : Keyed q K t) (hk : K k) :
    get? q k t = (Entry.lookup (mark k) (entries mark t)).map Entry.value := by
  rw [get?, find?]
  induction t with
  | nil => rfl
  | cons s t ih =>
    obtain ⟨hs, ht⟩ := List.forall_mem_cons.mp ht
    have hcons : entries mark (s :: t) = s.entry mark :: entries mark t := rfl
    rw [hcons, Entry.lookup_cons, List.find?_cons, ← hq.holds_eq_answers hk hs]
    cases s.holds q k with
    | true => rfl
    | false => exact ih ht

theorem contains_eq_isSome_get? (q : Keying κ) (k : κ) (t : List (Slot κ ν)) :
    contains q k t = (get? q k t).isSome := by
  rw [get?, find?, Option.isSome_map, contains, Bool.eq_iff_iff, List.find?_isSome,
    List.any_eq_true]

theorem insert_of_not_contains (h : contains q k t = false) :
    insert q k v t = t ++ [⟨q.hash k, k, v⟩] := by
  induction t with
  | nil => rfl
  | cons s t ih =>
    obtain ⟨hs, ht⟩ := Bool.or_eq_false_iff.mp h
    rw [insert, hs, if_neg Bool.false_ne_true, ih ht]
    rfl

theorem entries_insert (hq : q.Marks mark K) (ht : Keyed q K t) (hk : K k) (v : ν) :
    entries mark (insert q k v t) = Entry.put ⟨mark k, k, v⟩ (entries mark t) := by
  induction t with
  | nil => rfl
  | cons s t ih =>
    obtain ⟨hs, ht⟩ := List.forall_mem_cons.mp ht
    have hcons : entries mark (s :: t) = s.entry mark :: entries mark t := rfl
    rw [hcons, insert, Entry.put, ← hq.holds_eq_answers hk hs]
    cases s.holds q k with
    | true => rfl
    | false => exact congrArg (s.entry mark :: ·) (ih ht)

theorem entries_erase (hq : q.Marks mark K) (ht : Keyed q K t) (hk : K k) :
    entries mark (erase q k t) = Entry.erase (mark k) (entries mark t) := by
  rw [erase, Entry.erase]
  induction t with
  | nil => rfl
  | cons s t ih =>
    obtain ⟨hs, ht⟩ := List.forall_mem_cons.mp ht
    have hcons : entries mark (s :: t) = s.entry mark :: entries mark t := rfl
    rw [hcons, List.eraseP_cons, List.eraseP_cons, ← hq.holds_eq_answers hk hs]
    cases s.holds q k with
    | true => rfl
    | false => exact congrArg (s.entry mark :: ·) (ih ht)

theorem entries_insertAll {t : List (Slot κ Unit)} (hq : q.Marks mark K) (ht : Keyed q K t)
    (hks : ∀ k ∈ ks, K k) : entries mark (insertAll q t ks) =
      Edit.applyAll (entries mark t) ((ks.map (Entry.ofKey mark)).map Edit.put) := by
  induction ks generalizing t with
  | nil => rfl
  | cons k ks ih =>
    obtain ⟨hk, hks⟩ := List.forall_mem_cons.mp hks
    have h := ih (ht.insert hk ()) hks
    rw [entries_insert hq ht hk] at h
    exact h

theorem contains_eq_isSome_lookup (hq : q.Marks mark K) (ht : Keyed q K t) (hk : K k) :
    contains q k t = (Entry.lookup (mark k) (entries mark t)).isSome := by
  rw [contains_eq_isSome_get?, get?_eq_lookup hq ht hk, Option.isSome_map]

/-- A table of keys finds a key if one of them equals it. -/
theorem contains_ofKeys (hq : q.Marks mark K) (hk : K k) (hks : ∀ l ∈ ks, K l) :
    contains q k (ofKeys q ks) = ks.any (q.same k) := by
  have hall : contains q k (insertAll q [] ks) = ks.any fun l => (mark k).same (mark l) := by
    rw [contains_eq_isSome_lookup hq (keyed_nil.insertAll hks) hk,
      entries_insertAll hq keyed_nil hks, Edit.isSome_lookup_applyAll_put, List.any_map]
    rfl
  rw [ofKeys, ← insertAll, hall, Bool.eq_iff_iff, List.any_eq_true, List.any_eq_true]
  refine exists_congr fun l => and_congr_right fun hl => ?_
  rw [hq.same k l hk (hks l hl)]

theorem retain_eq_filter {t : List (Slot κ Unit)} (hq : q.Marks mark K) (ht : Keyed q K t)
    (hks : ∀ l ∈ ks, K l) : retain q t ks = t.filter fun s => ks.any (q.same s.key) :=
  List.filter_congr fun s hs => contains_ofKeys hq (ht s hs).key hks

theorem entries_retain {t : List (Slot κ Unit)} (hq : q.Marks mark K) (ht : Keyed q K t)
    (hks : ∀ l ∈ ks, K l) :
    entries mark (retain q t ks) = Entry.retain (ks.map mark) (entries mark t) := by
  rw [retain_eq_filter hq ht hks, entries, entries, Entry.retain, List.filter_map]
  refine congrArg (List.map _) (List.filter_congr fun s hs => ?_)
  rw [Function.comp_apply, List.any_map, Bool.eq_iff_iff, List.any_eq_true, List.any_eq_true]
  refine exists_congr fun l => and_congr_right fun hl => ?_
  rw [hq.same _ l (ht s hs).key (hks l hl)]
  rfl

/-! The same in terms of the keys alone. -/

/-- A key is found exactly if a search through the stored keys comes upon an equal one. -/
theorem contains_eq_any (hq : q.Marks mark K) (ht : Keyed q K t) (hk : K k) :
    contains q k t = (t.map Slot.key).any (q.same k) := by
  rw [contains, List.any_map, Bool.eq_iff_iff, List.any_eq_true, List.any_eq_true]
  refine exists_congr fun s => and_congr_right fun hs => ?_
  rw [hq.holds_eq_same hk (ht s hs)]
  rfl

/-- A stored key stays where an equal one is inserted. -/
theorem keys_insert (q : Keying κ) (k : κ) (v : ν) (t : List (Slot κ ν)) :
    (insert q k v t).map Slot.key =
      if contains q k t then t.map Slot.key else t.map Slot.key ++ [k] := by
  induction t with
  | nil => rfl
  | cons s t ih =>
    rw [insert, contains, List.any_cons]
    cases s.holds q k with
    | true => rfl
    | false =>
      rw [if_neg Bool.false_ne_true, List.map_cons, ih, Bool.false_or, ← contains]
      split <;> rfl

theorem keys_erase (hq : q.Marks mark K) (ht : Keyed q K t) (hk : K k) :
    (erase q k t).map Slot.key = (t.map Slot.key).eraseP (q.same k) := by
  rw [erase]
  induction t with
  | nil => rfl
  | cons s t ih =>
    obtain ⟨hs, ht⟩ := List.forall_mem_cons.mp ht
    rw [List.map_cons, List.eraseP_cons, List.eraseP_cons, hq.holds_eq_same hk hs]
    cases q.same k s.key with
    | true => rfl
    | false => exact congrArg (s.key :: ·) (ih ht)

theorem keys_retain {t : List (Slot κ Unit)} (hq : q.Marks mark K) (ht : Keyed q K t)
    (hks : ∀ l ∈ ks, K l) :
    (retain q t ks).map Slot.key = (t.map Slot.key).filter fun k => ks.any (q.same k) := by
  rw [retain_eq_filter hq ht hks, List.filter_map]
  rfl

end Table

/-! Tables of a store. -/

/-- Elements are told apart by their marks and found by their hashes. -/
theorem ElementType.keying_marks {s : Store} {os : List Handle} (hs : s.Sound os)
    (k : ElementType) : (k.keying s).Marks (k.mark s) fun x => s.SafeAll (k.owned x) where
  same _ _ hv hw := k.same_eq_mark hs hv hw
  hash v w h := k.hash_eq_of_mark_eq s v w h

namespace Store

variable {s t : Store} {os os' : List Handle} {k : ElementType} {ss : List (Slot k.Value ν)}
  {e : Slot k.Value ν} {n : Nat}

/-- The slots of a table have the hashes of their keys, and these refer to live objects. -/
def Keyed (s : Store) (k : ElementType) (ss : List (Slot k.Value ν)) : Prop :=
  Table.Keyed (k.keying s) (fun x => s.SafeAll (k.owned x)) ss

def entries (s : Store) (k : ElementType) (ss : List (Slot k.Value ν)) :
    List (Entry k.Value ν) :=
  Table.entries (k.mark s) ss

theorem keys_entries (s : Store) (k : ElementType) (ss : List (Slot k.Value ν)) :
    (s.entries k ss).map Entry.key = ss.map Slot.key :=
  List.map_map

/-- Neither hashes nor marks of keys change while the keys live. -/
theorem Keyed.of_precedes (hk : s.Keyed k ss) (hst : s.Precedes t) (hs : s.Sound os)
    (ht : t.Sound os') (hsafe : ∀ e ∈ ss, t.SafeAll (k.owned e.key)) :
    t.Keyed k ss ∧ t.entries k ss = s.entries k ss := by
  constructor
  · intro e he
    obtain ⟨hh, hkey⟩ := hk e he
    refine ⟨hh.trans ?_, hsafe e he⟩
    exact (k.hash_eq_of_precedes hst hs ht e.key hkey (hsafe e he)).symm
  · refine List.map_congr_left fun e he => ?_
    have hmark := k.mark_eq_of_precedes hst hs ht e.key (hk e he).key (hsafe e he)
    rw [Slot.entry, Slot.entry, hmark]

/-- No key equals another one in a table whose entries are distinct. -/
theorem Keyed.distinct (hk : s.Keyed k ss) (hs : s.Sound os)
    (hd : Entry.Distinct (s.entries k ss)) :
    (ss.map Slot.key).Pairwise fun x y => k.same s x y = false := by
  rw [List.pairwise_map]
  refine (List.pairwise_map.mp hd).imp_of_mem fun ha hb hab => ?_
  rw [k.same_eq_mark hs (hk _ ha).key (hk _ hb).key]
  exact hab

/-- No key is found among those before it. -/
theorem Keyed.get?_take (hk : s.Keyed k ss) (hs : s.Sound os)
    (hd : Entry.Distinct (s.entries k ss)) (he : ss[n]? = some e) :
    Table.get? (k.keying s) e.key (ss.take n) = none := by
  have htake : ss.take (n + 1) = ss.take n ++ [e] := by rw [List.take_add_one, he]; rfl
  have hpairs : Entry.Distinct (s.entries k (ss.take n ++ [e])) :=
    htake ▸ hd.sublist ((List.take_sublist (n + 1) ss).map _)
  obtain ⟨-, -, hnew⟩ := List.pairwise_append.mp (List.pairwise_map.mp hpairs)
  have hnone : Entry.lookup (k.mark s e.key) (s.entries k (ss.take n)) = none := by
    refine Entry.lookup_eq_none_iff.mpr (List.forall_mem_map.mpr fun x hx => ?_)
    exact (Mark.same_comm _ _).trans (hnew x hx e (List.mem_singleton_self e))
  have hk' : s.Keyed k (ss.take n) := fun x hx => hk x (List.mem_of_mem_take hx)
  have hkey := (hk e (List.mem_of_getElem? he)).key
  rw [Table.get?_eq_lookup (k.keying_marks hs) hk' hkey]
  exact congrArg (Option.map Entry.value) hnone

theorem Keyed.insert_take (hk : s.Keyed k ss) (hs : s.Sound os)
    (hd : Entry.Distinct (s.entries k ss)) (he : ss[n]? = some e) :
    Table.insert (k.keying s) e.key e.value (ss.take n) = ss.take (n + 1) := by
  have hhash := (hk e (List.mem_of_getElem? he)).hash
  have hcontains : Table.contains (k.keying s) e.key (ss.take n) = false := by
    rw [Table.contains_eq_isSome_get?, hk.get?_take hs hd he]
    rfl
  rw [Table.insert_of_not_contains hcontains, ← hhash, List.take_add_one, he]
  rfl

/-- To make objects does not touch a table. -/
theorem Keyed.of_grows (hk : s.Keyed k ss) (hst : s.Grows t) (hs : s.Sound os) (ht : t.Sound os') :
    t.Keyed k ss ∧ t.entries k ss = s.entries k ss :=
  hk.of_precedes hst.toPrecedes hs ht fun e he x hx => hst.safe ((hk e he).key x hx)

end Store

end CountedObjects
