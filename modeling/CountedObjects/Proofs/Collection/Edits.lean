import CountedObjects.Proofs.Store.Mark
import Mathlib.Data.List.Basic
import Mathlib.Data.List.Induction

/-! Histories of tables, without hashes. Entries are searched one after the other for a key that
equals the one asked for. What a history of edits leaves of a key depends on the last edit that
affects it alone, and keys that hold a NaN pile up until the table is swept. -/
namespace CountedObjects

/-- A key with its mark, and its value. -/
structure Entry (κ ν : Type) where
  mark : Mark
  key : κ
  value : ν
  deriving DecidableEq

/-- A change of a table. -/
inductive Edit (κ ν : Type)
  | put (e : Entry κ ν)
  | erase (m : Mark)
  | retain (ms : List Mark)
  | clear
  deriving DecidableEq

variable {κ ν : Type} {es : List (Entry κ ν)} {e x : Entry κ ν} {m n : Mark} {d : Edit κ ν}
  {edits : List (Edit κ ν)} {v : ν}

namespace Entry

/-- Whether an entry is the one for keys with the mark. -/
def answers (m : Mark) (e : Entry κ ν) : Bool := m.same e.mark

def lookup (m : Mark) (es : List (Entry κ ν)) : Option (Entry κ ν) := es.find? (answers m)

/-- Gives the value to the entry of an equal key, which stays, or makes a new last entry. -/
def put (e : Entry κ ν) : List (Entry κ ν) → List (Entry κ ν)
  | [] => [e]
  | x :: es => if answers e.mark x then { x with value := e.value } :: es else x :: put e es

def erase (m : Mark) (es : List (Entry κ ν)) : List (Entry κ ν) := es.eraseP (answers m)

/-- The entries whose keys are equal to some with the marks. -/
def retain (ms : List Mark) (es : List (Entry κ ν)) : List (Entry κ ν) :=
  es.filter fun e => ms.any e.mark.same

/-- No key equals another one. -/
def Distinct (es : List (Entry κ ν)) : Prop :=
  es.Pairwise fun a b => a.mark.same b.mark = false

theorem mark_eq_of_answers (h : answers m e = true) : e.mark = m := (Mark.same_iff.mp h).2.symm

theorem lookup_cons (m : Mark) (x : Entry κ ν) (es : List (Entry κ ν)) :
    lookup m (x :: es) = if answers m x then some x else lookup m es := by
  rw [lookup, lookup, List.find?_cons]
  cases answers m x <;> rfl

theorem lookup_eq_none_iff : lookup m es = none ↔ ∀ e ∈ es, answers m e = false := by
  simp [lookup]

theorem lookup_of_hasNaN (hm : m.HasNaN) (es : List (Entry κ ν)) : lookup m es = none :=
  lookup_eq_none_iff.mpr fun e _ => Mark.same_of_hasNaN hm e.mark

theorem mem_marks_put (hx : x ∈ put e es) : x.mark = e.mark ∨ ∃ y ∈ es, x.mark = y.mark := by
  induction es with
  | nil => exact .inl (by rw [List.mem_singleton.mp hx])
  | cons y es ih =>
    unfold put at hx
    split at hx
    · rcases List.mem_cons.mp hx with rfl | hx
      · exact .inr ⟨y, List.mem_cons_self .., rfl⟩
      · exact .inr ⟨x, List.mem_cons_of_mem _ hx, rfl⟩
    · rcases List.mem_cons.mp hx with rfl | hx
      · exact .inr ⟨x, List.mem_cons_self .., rfl⟩
      · rcases ih hx with he | ⟨z, hz, he⟩
        · exact .inl he
        · exact .inr ⟨z, List.mem_cons_of_mem _ hz, he⟩

theorem Distinct.put (h : Distinct es) (e : Entry κ ν) : Distinct (put e es) := by
  induction es with
  | nil => exact List.pairwise_singleton _ _
  | cons y es ih =>
    obtain ⟨hy, hes⟩ := List.pairwise_cons.mp h
    unfold Entry.put
    split
    · exact List.pairwise_cons.mpr ⟨hy, hes⟩
    · next hne =>
      refine List.pairwise_cons.mpr ⟨fun x hx => ?_, ih hes⟩
      rcases mem_marks_put hx with he | ⟨z, hz, he⟩
      · rw [he, Mark.same_comm]
        exact Bool.eq_false_iff.mpr hne
      · rw [he]
        exact hy z hz

theorem Distinct.erase (h : Distinct es) (m : Mark) : Distinct (erase m es) :=
  h.sublist List.eraseP_sublist

theorem Distinct.retain (h : Distinct es) (ms : List Mark) : Distinct (retain ms es) :=
  h.sublist List.filter_sublist

/-! What is found after an edit. -/

theorem lookup_put_of_same (h : m.same e.mark = true) (es : List (Entry κ ν)) :
    (lookup m (put e es)).map value = some e.value := by
  induction es with
  | nil => simp [lookup, put, answers, h]
  | cons x es ih =>
    have hx : answers e.mark x = answers m x := (Mark.same_congr h x.mark).symm
    unfold put
    rw [hx]
    split
    · next hmx =>
      rw [lookup_cons, if_pos (by exact hmx)]
      rfl
    · next hmx => rw [lookup_cons, if_neg hmx, ih]

theorem lookup_put_of_not_same (h : m.same e.mark = false) (es : List (Entry κ ν)) :
    lookup m (put e es) = lookup m es := by
  induction es with
  | nil => simp [lookup, put, answers, h]
  | cons x es ih =>
    unfold put
    split
    · next hex =>
      have hmx : answers m x = false := by rw [answers, mark_eq_of_answers hex, h]
      rw [lookup_cons, lookup_cons, hmx, if_neg Bool.false_ne_true, if_neg]
      exact ne_of_eq_of_ne hmx Bool.false_ne_true
    · rw [lookup_cons, lookup_cons, ih]

/-- Of the entries that answer to a mark there is no more than one. -/
theorem Distinct.lookup_erase_of_same (hes : Distinct es) (h : m.same n = true) :
    lookup m (Entry.erase n es) = none := by
  rw [lookup_eq_none_iff]
  induction es with
  | nil => exact List.forall_mem_nil _
  | cons x es ih =>
    obtain ⟨hx, hes⟩ := List.pairwise_cons.mp hes
    unfold Entry.erase
    cases hnx : answers n x with
    | true =>
      rw [List.eraseP_cons_of_pos hnx]
      intro y hy
      rw [answers, Mark.same_congr h, ← mark_eq_of_answers hnx]
      exact hx y hy
    | false =>
      rw [List.eraseP_cons_of_neg (by rw [hnx]; exact Bool.false_ne_true)]
      refine List.forall_mem_cons.mpr ⟨?_, ih hes⟩
      rw [← hnx, answers, answers, Mark.same_congr h]

theorem lookup_erase_of_not_same (h : m.same n = false) (es : List (Entry κ ν)) :
    lookup m (erase n es) = lookup m es := by
  induction es with
  | nil => rfl
  | cons x es ih =>
    unfold erase at ih ⊢
    cases hnx : answers n x with
    | true =>
      have hmx : answers m x = false := by rw [answers, mark_eq_of_answers hnx, h]
      rw [List.eraseP_cons_of_pos hnx, lookup_cons, hmx, if_neg Bool.false_ne_true]
    | false =>
      rw [List.eraseP_cons_of_neg (by rw [hnx]; exact Bool.false_ne_true), lookup_cons, lookup_cons,
        ih]

theorem lookup_retain (ms : List Mark) (es : List (Entry κ ν)) :
    lookup m (retain ms es) = if ms.any m.same then lookup m es else none := by
  induction es with
  | nil => simp [lookup, retain]
  | cons x es ih =>
    unfold retain at ih ⊢
    cases hmx : answers m x with
    | true =>
      rw [List.filter_cons, mark_eq_of_answers hmx]
      cases hany : ms.any m.same with
      | true => simp [lookup_cons, hmx]
      | false => simpa [hany] using ih
    | false =>
      rw [List.filter_cons, lookup_cons m x es, hmx, if_neg Bool.false_ne_true, ← ih]
      split
      · rw [lookup_cons, hmx, if_neg Bool.false_ne_true]
      · rfl

end Entry

namespace Edit

open Entry (lookup)

def apply (es : List (Entry κ ν)) : Edit κ ν → List (Entry κ ν)
  | put e => Entry.put e es
  | erase m => Entry.erase m es
  | retain ms => Entry.retain ms es
  | clear => []

def applyAll (es : List (Entry κ ν)) (edits : List (Edit κ ν)) : List (Entry κ ν) :=
  edits.foldl apply es

/-- An edit that takes away the entry for keys with the mark. -/
def Removes (m : Mark) : Edit κ ν → Prop
  | put _ => False
  | erase n => m.same n = true
  | retain ms => ms.any m.same = false
  | clear => True

/-- An edit that gives keys with the mark a value or takes their entry away. -/
def Affects (m : Mark) : Edit κ ν → Prop
  | put e => m.same e.mark = true
  | d => d.Removes m

/-- The last edit that affects keys with the mark gives them the value. -/
def LastPut (edits : List (Edit κ ν)) (m : Mark) (v : ν) : Prop :=
  ∃ before e after, edits = before ++ put e :: after ∧ m.same e.mark = true ∧ e.value = v ∧
    ∀ d ∈ after, ¬ d.Affects m

/-- Takes away all entries of keys that hold a NaN. -/
def sweeps : Edit κ ν → Bool
  | retain _ | clear => true
  | put _ | erase _ => false

def sinceSweep (edits : List (Edit κ ν)) : List (Edit κ ν) :=
  (edits.reverse.takeWhile fun d => !d.sweeps).reverse

/-- The entry that is put for a key with the mark. -/
def put? (m : Mark) : Edit κ ν → Option (Entry κ ν)
  | put e => if e.mark = m then some e else none
  | _ => none

theorem applyAll_append (es : List (Entry κ ν)) (edits edits' : List (Edit κ ν)) :
    applyAll es (edits ++ edits') = applyAll (applyAll es edits) edits' :=
  List.foldl_append

theorem applyAll_concat (es : List (Entry κ ν)) (edits : List (Edit κ ν)) (d : Edit κ ν) :
    applyAll es (edits ++ [d]) = apply (applyAll es edits) d :=
  applyAll_append es edits [d]

theorem distinct_apply (h : Entry.Distinct es) (d : Edit κ ν) : Entry.Distinct (apply es d) := by
  cases d with
  | put e => exact h.put e
  | erase m => exact h.erase m
  | retain ms => exact h.retain ms
  | clear => exact List.Pairwise.nil

theorem distinct_applyAll (h : Entry.Distinct es) (edits : List (Edit κ ν)) :
    Entry.Distinct (applyAll es edits) := by
  induction edits generalizing es with
  | nil => exact h
  | cons d edits ih => exact ih (distinct_apply h d)

/-- An edit that does not affect a key leaves what is found for it. -/
theorem lookup_apply_of_not_affects (hd : ¬ d.Affects m) (es : List (Entry κ ν)) :
    lookup m (apply es d) = lookup m es := by
  cases d with
  | put e => exact Entry.lookup_put_of_not_same (Bool.eq_false_iff.mpr hd) es
  | erase n => exact Entry.lookup_erase_of_not_same (Bool.eq_false_iff.mpr hd) es
  | retain ms => exact (Entry.lookup_retain ms es).trans (if_pos (Bool.not_eq_false _ ▸ hd))
  | clear => exact absurd trivial hd

theorem lookup_apply_of_removes (hes : Entry.Distinct es) (hd : d.Removes m) :
    lookup m (apply es d) = none := by
  cases d with
  | put e => exact hd.elim
  | erase n => exact hes.lookup_erase_of_same hd
  | retain ms =>
    rw [apply, Entry.lookup_retain, hd]
    rfl
  | clear => rfl

theorem affects_iff : d.Affects m ↔ (∃ e, d = put e ∧ m.same e.mark = true) ∨ d.Removes m := by
  cases d with
  | put e => simp [Affects, Removes]
  | _ => simp [Affects]

theorem lastPut_concat : LastPut (edits ++ [d]) m v ↔
    (∃ e, d = put e ∧ m.same e.mark = true ∧ e.value = v) ∨ ¬ d.Affects m ∧ LastPut edits m v := by
  constructor
  · rintro ⟨before, e, after, heq, he, hv, hafter⟩
    rcases List.eq_nil_or_concat' after with rfl | ⟨after, d', rfl⟩
    · obtain ⟨-, hd⟩ := List.append_inj' heq rfl
      cases hd
      exact .inl ⟨e, rfl, he, hv⟩
    · rw [← List.cons_append, ← List.append_assoc] at heq
      obtain ⟨hedits, hd⟩ := List.append_inj' heq rfl
      cases hd
      refine .inr ⟨hafter d (by simp), before, e, after, hedits, he, hv, fun x hx => ?_⟩
      exact hafter x (by simp [hx])
  · rintro (⟨e, rfl, he, hv⟩ | ⟨hd, before, e, after, rfl, he, hv, hafter⟩)
    · exact ⟨edits, e, [], rfl, he, hv, List.forall_mem_nil _⟩
    · refine ⟨before, e, after ++ [d], by simp, he, hv, fun x hx => ?_⟩
      rcases List.mem_append.mp hx with hx | hx
      · exact hafter x hx
      · rwa [List.mem_singleton.mp hx]

theorem not_lastPut_nil : ¬ LastPut ([] : List (Edit κ ν)) m v := by
  rintro ⟨before, e, after, heq, -⟩
  simp at heq

/-- What is found for a key is what the last edit that affects it has put. -/
theorem lookup_applyAll_iff (edits : List (Edit κ ν)) (m : Mark) (v : ν) :
    (lookup m (applyAll [] edits)).map Entry.value = some v ↔ LastPut edits m v := by
  induction edits using List.reverseRecOn with
  | nil =>
    refine ⟨fun h => ?_, fun h => absurd h not_lastPut_nil⟩
    cases h
  | append_singleton edits d ih =>
    rw [applyAll_concat, lastPut_concat]
    by_cases hd : d.Affects m
    · rcases affects_iff.mp hd with ⟨e, rfl, he⟩ | hr
      · rw [apply, Entry.lookup_put_of_same he]
        simp [hd, he]
      · have hes : Entry.Distinct (applyAll [] edits) := distinct_applyAll List.Pairwise.nil _
        rw [lookup_apply_of_removes hes hr]
        constructor
        · intro h
          cases h
        · rintro (⟨e, rfl, -⟩ | ⟨hn, -⟩)
          · exact hr.elim
          · exact absurd hd hn
    · rw [lookup_apply_of_not_affects hd, ih]
      constructor
      · exact fun h => .inr ⟨hd, h⟩
      · rintro (⟨e, rfl, he, -⟩ | ⟨-, h⟩)
        · exact absurd he hd
        · exact h

/-- A key is found until its entry is taken away. -/
theorem isSome_lookup_applyAll (h : (lookup m es).isSome = true)
    (hedits : ∀ d ∈ edits, ¬ d.Removes m) : (lookup m (applyAll es edits)).isSome = true := by
  induction edits generalizing es with
  | nil => exact h
  | cons d edits ih =>
    obtain ⟨hd, hedits⟩ := List.forall_mem_cons.mp hedits
    refine ih ?_ hedits
    by_cases ha : d.Affects m
    · obtain ⟨e, rfl, he⟩ := (affects_iff.mp ha).resolve_right hd
      rw [← Option.isSome_map, apply, Entry.lookup_put_of_same he]
      rfl
    · rwa [lookup_apply_of_not_affects ha]

/-- After puts alone, what was found is found and so is what was put. -/
theorem isSome_lookup_applyAll_put (m : Mark) (es puts : List (Entry κ ν)) :
    (lookup m (applyAll es (puts.map put))).isSome =
      ((lookup m es).isSome || puts.any (Entry.answers m)) := by
  induction puts generalizing es with
  | nil => rw [List.any_nil, Bool.or_false]; rfl
  | cons e puts ih =>
    have hput : (lookup m (Entry.put e es)).isSome =
        ((lookup m es).isSome || Entry.answers m e) := by
      cases he : Entry.answers m e with
      | true => rw [← Option.isSome_map, Entry.lookup_put_of_same he, Bool.or_true]; rfl
      | false => rw [Entry.lookup_put_of_not_same he, Bool.or_false]
    rw [List.any_cons, ← Bool.or_assoc, ← hput]
    exact ih (Entry.put e es)

/-! Entries of keys that hold a NaN. -/

theorem filter_put_of_hasNaN (hm : m.HasNaN) (e : Entry κ ν) (es : List (Entry κ ν)) :
    (Entry.put e es).filter (·.mark = m) = es.filter (·.mark = m) ++ ((put e).put? m).toList := by
  induction es with
  | nil => by_cases he : e.mark = m <;> simp [Entry.put, put?, he]
  | cons x es ih =>
    unfold Entry.put
    split
    · next hex =>
      -- Neither key holds a NaN, so neither has this mark.
      obtain ⟨hn, hx⟩ := Mark.same_iff.mp hex
      have he : e.mark ≠ m := fun h => hn (h ▸ hm)
      simp [put?, he, ← hx]
    · rw [List.filter_cons, List.filter_cons, ih]
      split <;> rfl

theorem filter_erase_of_hasNaN (hm : m.HasNaN) (n : Mark) (es : List (Entry κ ν)) :
    (Entry.erase n es).filter (·.mark = m) = es.filter (·.mark = m) := by
  induction es with
  | nil => rfl
  | cons x es ih =>
    unfold Entry.erase at ih ⊢
    cases hnx : Entry.answers n x with
    | true =>
      obtain ⟨hn, hx⟩ := Mark.same_iff.mp hnx
      have hxm : x.mark ≠ m := fun h => hn (by rw [hx, h]; exact hm)
      simp [List.eraseP_cons_of_pos hnx, hxm]
    | false =>
      rw [List.eraseP_cons_of_neg (by rw [hnx]; exact Bool.false_ne_true), List.filter_cons,
        List.filter_cons, ih]

theorem filter_sweep_of_hasNaN (hm : m.HasNaN) (hd : d.sweeps = true) (es : List (Entry κ ν)) :
    (apply es d).filter (·.mark = m) = [] := by
  cases d with
  | put | erase => cases hd
  | clear => rfl
  | retain ms =>
    rw [apply, Entry.retain, List.filter_filter, List.filter_eq_nil_iff]
    intro e _ he
    simp only [Bool.and_eq_true, decide_eq_true_eq, List.any_eq_true] at he
    obtain ⟨rfl, n, -, hn⟩ := he
    exact (Mark.same_iff.mp hn).1 hm

theorem sinceSweep_concat (edits : List (Edit κ ν)) (d : Edit κ ν) :
    sinceSweep (edits ++ [d]) = if d.sweeps then [] else sinceSweep edits ++ [d] := by
  rw [sinceSweep, List.reverse_append, List.reverse_singleton, List.singleton_append,
    List.takeWhile_cons]
  cases d.sweeps <;> simp [sinceSweep]

/-- The entries of keys that hold a NaN are all that were put since the table was last swept. -/
theorem filter_applyAll_of_hasNaN (hm : m.HasNaN) (edits : List (Edit κ ν)) :
    (applyAll [] edits).filter (·.mark = m) = (sinceSweep edits).filterMap (put? m) := by
  induction edits using List.reverseRecOn with
  | nil => rfl
  | append_singleton edits d ih =>
    rw [applyAll_concat, sinceSweep_concat]
    cases hd : d.sweeps with
    | true =>
      rw [filter_sweep_of_hasNaN hm hd]
      rfl
    | false =>
      rw [if_neg Bool.false_ne_true, List.filterMap_append, ← ih]
      cases d with
      | put e =>
        rw [apply, filter_put_of_hasNaN hm]
        cases h : put? m (put e) <;> simp [h]
      | erase n =>
        rw [apply, filter_erase_of_hasNaN hm]
        simp [put?]
      | retain | clear => cases hd

end Edit

end CountedObjects
