import CountedObjects.Proofs.Elements
import CountedObjects.Proofs.Session.Contents

/-! What the steps on a list do to it and answer. -/
namespace CountedObjects

/-! Positions that are in range and those that are not. -/
namespace Sequence

variable {α : Type} {xs : List α} {i : Nat}

theorem get_of_lt (h : i < xs.length) : get xs i = .ok xs[i] := by
  unfold get
  rw [List.getElem?_eq_getElem h]

theorem get_of_length_le (h : xs.length ≤ i) :
    get xs i = .error (.collection (.indexOutOfRange i xs.length)) := by
  unfold get
  rw [List.getElem?_eq_none h]
  rfl

theorem removeAt_of_lt (h : i < xs.length) : removeAt xs i = .ok (xs[i], xs.eraseIdx i) := by
  unfold removeAt
  rw [List.getElem?_eq_getElem h]

theorem removeAt_of_length_le (h : xs.length ≤ i) :
    removeAt xs i = .error (.collection (.indexOutOfRange i xs.length)) := by
  unfold removeAt
  rw [List.getElem?_eq_none h]
  rfl

end Sequence

/-- Builds an object and converts it as a list does that is given an object. -/
def Literal.converted (t : ElementType) (l : Literal) : Action t.Value := do
  let o ← l.build
  Action.convert t.required? fun s => Action.asCollectionError (t.ofObject s o)

namespace Action

variable {α β : Type} {s u w : Session} {h : String} {id i : Nat} {e : Fault} {t : ElementType}
  {xs ys : List t.Value} {x : t.Value} {l : Literal} {o : Handle}

theorem ofResult_ok (x : α) (s : Session) : ofResult (.ok x) s = (.ok x, s) := rfl

theorem ofResult_error (e : Fault) (s : Session) :
    (ofResult (.error e) : Action α) s = (.error e, s) := rfl

theorem openList_run (ho : s.Opened h (some id) (.list t xs)) :
    openList h s = (.ok ⟨some id, t, xs⟩, s) := by
  unfold openList
  rw [bind_ok (ask_run _ s), bind_ok (ask_run _ s), ho.1, ho.2]
  rfl

/-! The steps with what they are given. -/

theorem listStep_add_run (ho : s.Opened h (some id) (.list t xs))
    (hx : l.element t s = (.ok x, u)) : listStep (.add h l) s =
      (.ok .nothing, u.mapRealm (·.replace id (.list t (xs ++ [x])))) :=
  argument_run (openList_run ho) rfl hx _

theorem listStep_addObject_eq (ho : s.Opened h (some id) (.list t xs)) (l : Literal) :
    listStep (.addObject h l) s = (do
      let x ← l.converted t
      replace id (.list t (xs ++ [x]))
      return .nothing : Action Answer) s := by
  unfold Literal.converted
  rw [bind_assoc]
  exact bind_ok (openList_run ho) _

theorem listStep_addRange_run {source : Source} (ho : s.Opened h (some id) (.list t xs))
    (hx : elementsOf t source s = (.ok ys, u)) : listStep (.addRange h source) s =
      (.ok (.number (xs ++ ys).length), u.mapRealm (·.replace id (.list t (xs ++ ys)))) :=
  argument_run (openList_run ho) rfl hx _

theorem listStep_get_run (ho : s.Opened h (some id) (.list t xs)) (hi : i < xs.length)
    (target : Option String) (hw : toObject t xs[i] s = (.ok o, w)) :
    listStep (.get h i target) s = ((w.store.view o).map .object, (deliver target o w).2) := by
  refine (opened_run (openList_run ho) rfl _).trans ?_
  rw [Sequence.get_of_lt hi, bind_ok (ofResult_ok ..)]
  exact (bind_ok hw _).trans (map_deliver_run o target Answer.object w)

theorem listStep_get_run_error (ho : s.Opened h (some id) (.list t xs)) (hi : xs.length ≤ i)
    (target : Option String) : listStep (.get h i target) s =
      (.error (.collection (.indexOutOfRange i xs.length)), s) := by
  refine (opened_run (openList_run ho) rfl _).trans ?_
  rw [Sequence.get_of_length_le hi]
  exact bind_error (ofResult_error _ s) _

theorem listStep_removeAt_run (ho : s.Opened h (some id) (.list t xs)) (hi : i < xs.length)
    (target : Option String) (hw : toObject t xs[i] s = (.ok o, w)) :
    let w' := w.mapRealm (·.replace id (.list t (xs.eraseIdx i)))
    listStep (.removeAt h i target) s =
      ((w'.store.view o).map .object, (deliver target o w').2) := by
  intro w'
  refine (opened_run (openList_run ho) rfl _).trans ?_
  rw [Sequence.removeAt_of_lt hi, bind_ok (ofResult_ok ..)]
  exact (bind_ok hw _).trans (map_deliver_run o target Answer.object w')

theorem listStep_removeAt_run_error (ho : s.Opened h (some id) (.list t xs)) (hi : xs.length ≤ i)
    (target : Option String) : listStep (.removeAt h i target) s =
      (.error (.collection (.indexOutOfRange i xs.length)), s) := by
  refine (opened_run (openList_run ho) rfl _).trans ?_
  rw [Sequence.removeAt_of_length_le hi]
  exact bind_error (ofResult_error _ s) _

theorem listStep_set_run (ho : s.Opened h (some id) (.list t xs)) (hi : i < xs.length)
    (hx : l.element t s = (.ok x, u)) : listStep (.set h i l) s =
      (.ok .nothing, u.mapRealm (·.replace id (.list t (xs.set i x)))) := by
  refine (argument_run (openList_run ho) rfl hx _).trans ?_
  rw [Sequence.set, if_pos hi]
  rfl

theorem listStep_set_run_error (ho : s.Opened h (some id) (.list t xs)) (hi : xs.length ≤ i)
    (hx : l.element t s = (.ok x, u)) : listStep (.set h i l) s =
      (.error (.collection (.indexOutOfRange i xs.length)), u) := by
  refine (argument_run (openList_run ho) rfl hx _).trans ?_
  rw [Sequence.set, if_neg (Nat.not_lt.mpr hi)]
  rfl

theorem listStep_insert_run (ho : s.Opened h (some id) (.list t xs)) (hi : i ≤ xs.length)
    (hx : l.element t s = (.ok x, u)) : listStep (.insert h i l) s =
      (.ok .nothing, u.mapRealm (·.replace id (.list t (xs.insertIdx i x)))) := by
  refine (argument_run (openList_run ho) rfl hx _).trans ?_
  rw [Sequence.insert, if_pos hi]
  rfl

theorem listStep_insert_run_error (ho : s.Opened h (some id) (.list t xs)) (hi : xs.length < i)
    (hx : l.element t s = (.ok x, u)) : listStep (.insert h i l) s =
      (.error (.collection (.indexOutOfRange i xs.length)), u) := by
  refine (argument_run (openList_run ho) rfl hx _).trans ?_
  rw [Sequence.insert, if_neg (Nat.not_le.mpr hi)]
  rfl

theorem listStep_remove_run (ho : s.Opened h (some id) (.list t xs))
    (hx : l.element t s = (.ok x, u))
    (hf : xs.findIdx? (fun y => t.same u.store y x) = some i) : listStep (.remove h l) s =
      (.ok (.flag true), u.mapRealm (·.replace id (.list t (xs.eraseIdx i)))) := by
  have hr : Sequence.remove? (t.same u.store) x xs = some (xs.eraseIdx i) := by
    rw [Sequence.remove?, Sequence.indexOf?, hf, Option.map_some]
  refine (argument_run (openList_run ho) rfl hx _).trans ?_
  rw [bind_ok (get_run u), hr]
  rfl

theorem listStep_remove_run_of_none (ho : s.Opened h (some id) (.list t xs))
    (hx : l.element t s = (.ok x, u))
    (hf : xs.findIdx? (fun y => t.same u.store y x) = none) :
    listStep (.remove h l) s = (.ok (.flag false), u) := by
  have hr : Sequence.remove? (t.same u.store) x xs = none := by
    rw [Sequence.remove?, Sequence.indexOf?, hf, Option.map_none]
  refine (argument_run (openList_run ho) rfl hx _).trans ?_
  rw [bind_ok (get_run u), hr]
  rfl

theorem listStep_contains_run (ho : s.Opened h (some id) (.list t xs))
    (hx : l.element t s = (.ok x, u)) : listStep (.contains h l) s =
      (.ok (.flag (Sequence.contains (t.same u.store) x xs)), u) :=
  argument_run (openList_run ho) rfl hx _

theorem listStep_indexOf_run (ho : s.Opened h (some id) (.list t xs))
    (hx : l.element t s = (.ok x, u)) : listStep (.indexOf h l) s =
      (.ok (.optionalNumber ((Sequence.indexOf? (t.same u.store) x xs).map Int.ofNat)), u) :=
  argument_run (openList_run ho) rfl hx _

theorem listStep_clear_run (ho : s.Opened h (some id) (.list t xs)) :
    listStep (.clear h) s = (.ok .nothing, s.mapRealm (·.replace id (.list t []))) :=
  opened_run (openList_run ho) rfl _

theorem listStep_count_run (ho : s.Opened h (some id) (.list t xs)) :
    listStep (.count h) s = (.ok (.size xs.length), s) :=
  opened_run (openList_run ho) rfl _

theorem listStep_toVec_eq (ho : s.Opened h (some id) (.list t xs)) :
    listStep (.toVec h) s = (do return .objects (← showElements t xs) : Action Answer) s :=
  opened_run (openList_run ho) rfl _

theorem listStep_sort_run {order : SortBy} (ho : s.Opened h (some id) (.list t xs))
    (hr : order.sort s.store t xs = (ys, .ok ())) : listStep (.sort h order) s =
      (do return .objects (← showElements t ys) : Action Answer)
        (s.mapRealm (·.replace id (.list t ys))) := by
  refine (opened_run (openList_run ho) rfl _).trans ?_
  rw [bind_ok (get_run s), hr]
  rfl

theorem listStep_sort_run_error {order : SortBy} (ho : s.Opened h (some id) (.list t xs))
    (hr : order.sort s.store t xs = (ys, .error e)) : listStep (.sort h order) s =
      (.error e, s.mapRealm (·.replace id (.list t ys))) := by
  refine (opened_run (openList_run ho) rfl _).trans ?_
  rw [bind_ok (get_run s), hr]
  rfl

/-! What is shown of the elements. -/

theorem converted_ensures (hs : s.Sound) (t : ElementType) (l : Literal) :
    Ensures Session.Builds (l.converted t) s fun v u => u.store.SafeAll (t.owned v) := by
  apply (Literal.build_ensures hs l).bind
  intro o u hu _ ho
  apply Ensures.converted hu
  intro v hv x hx
  rw [t.owned_ofObject v (ok_of_asCollectionError hv) x hx]
  exact hu.safe_of_holds ho

/-- Each element becomes an object that stands for it. -/
theorem mapM_toObject_run (hs : s.Sound) (t : ElementType) (vs : List t.Value)
    (hv : ∀ v ∈ vs, s.store.SafeAll (t.owned v)) :
    ∃ os u, vs.mapM (toObject t) s = (.ok os, u) ∧ u.Sound ∧ s.Builds u ∧
      List.Forall₂ (fun v o => u.Holds o ∧ t.Represents u.store v o) vs os := by
  induction vs generalizing s with
  | nil => exact ⟨[], s, rfl, hs, .refl s, .nil⟩
  | cons v vs ih =>
    obtain ⟨hv, hvs⟩ := List.forall_mem_cons.mp hv
    have hmade := toObject_ensures hs t v hv
    have hrep := t.represents_toObject s.realm v
    have hrun : toObject t v s = (.ok (s.realm.toObject t v).1, (toObject t v s).2) := rfl
    have hlater : ∀ y ∈ vs, (toObject t v s).2.store.SafeAll (t.owned y) :=
      fun y hm x hx => hmade.follows.store.safe (hvs y hm x hx)
    obtain ⟨os, u, hos, hu, hb, hall⟩ := ih hmade.sound hlater
    have hheld := (hmade.result _ rfl).mono hb.held
    have hlast := hrep.mono hb.store.toPrecedes (hu.safe_of_holds hheld)
    refine ⟨_, u, ?_, hu, hmade.follows.trans hb, .cons ⟨hheld, hlast⟩ hall⟩
    rw [List.mapM_cons, bind_ok hrun, bind_ok hos]
    rfl

end Action

end CountedObjects
