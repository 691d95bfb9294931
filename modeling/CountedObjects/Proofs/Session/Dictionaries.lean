import CountedObjects.Proofs.Collection.Lookup
import CountedObjects.Proofs.Elements
import CountedObjects.Proofs.Session.Contents

/-! What the steps on a dictionary do to it and answer. -/
namespace CountedObjects

namespace Action

variable {α β : Type} {s u u' w : Session} {h : String} {id : Nat} {e : Fault} {o : Handle}

/-- What a step answers that ends with showing an object, if there is one. -/
theorem map_mapM_view_run (o : Option Handle) (s : Session) :
    (do return Answer.optional (← o.mapM view) : Action Answer) s =
      ((o.mapM s.store.view).map .optional, s) := by
  cases o with
  | none => rfl
  | some o =>
    have hview : view o s = (s.store.view o, s) := query_run _ s
    rw [Option.mapM_some, Option.mapM_some, map_eq_pure_bind, bind_assoc]
    cases hv : s.store.view o with
    | error e => exact bind_error (hv ▸ hview) _
    | ok x => exact bind_ok (hv ▸ hview) _

theorem not_isOk_bind_error (r : Result String) (f : String → Fault) :
    ¬ (do .error (f (← r)) : Result Answer).isOk = true := by
  cases r <;> exact Bool.false_ne_true

variable {kt vt : ElementType} {ss : List (Slot kt.Value vt.Value)} {k v : Literal}
  {key : kt.Value} {value : vt.Value} {old : Option Handle}

theorem openDictionary_run (ho : s.Opened h (some id) (.dictionary kt vt ss)) :
    openDictionary h s = (.ok ⟨some id, kt, vt, ss⟩, s) := by
  unfold openDictionary
  rw [bind_ok (ask_run _ s), bind_ok (ask_run _ s), ho.1, ho.2]
  rfl

/-! How the steps begin that are given a key and a value. -/

theorem entry_run (ho : s.Opened h (some id) (.dictionary kt vt ss))
    (hk : k.element kt s = (.ok key, u')) (hv : v.element vt u' = (.ok value, u))
    (f : (o : OpenDictionary) → o.key.Value → o.value.Value → Nat → Action β) :
    (do
      let o ← openDictionary h
      let key ← k.element o.key
      let value ← v.element o.value
      f o key value (← demandId o.id)) s = f ⟨some id, kt, vt, ss⟩ key value id u := by
  rw [bind_ok (openDictionary_run ho), bind_ok hk, bind_ok hv]
  rfl

theorem entry_run_error (ho : s.Opened h (some id) (.dictionary kt vt ss))
    (hk : k.element kt s = (.ok key, u')) (hv : v.element vt u' = (.error e, u))
    (f : (o : OpenDictionary) → o.key.Value → o.value.Value → Action β) :
    (do
      let o ← openDictionary h
      let key ← k.element o.key
      let value ← v.element o.value
      f o key value) s = (.error e, u) := by
  rw [bind_ok (openDictionary_run ho), bind_ok hk, bind_error hv]

/-! The steps with what they are given. -/

theorem dictionaryStep_add_run_of_contains (ho : s.Opened h (some id) (.dictionary kt vt ss))
    (hk : k.element kt s = (.ok key, u')) (hv : v.element vt u' = (.ok value, u))
    (hc : Table.contains (kt.keying u.store) key ss = true) : dictionaryStep (.add h k v) s =
      (do .error (.collection (.duplicateKey (← kt.display u.store key))), u) := by
  refine (entry_run ho hk hv _).trans ?_
  rw [keying, bind_ok (ask_run _ u), if_pos hc]
  have hquery := query_run (fun s => kt.display s key) u
  cases hd : kt.display u.store key with
  | error e => exact bind_error (hd ▸ hquery) _
  | ok x => exact bind_ok (hd ▸ hquery) _

theorem dictionaryStep_add_run (ho : s.Opened h (some id) (.dictionary kt vt ss))
    (hk : k.element kt s = (.ok key, u')) (hv : v.element vt u' = (.ok value, u))
    (hc : Table.contains (kt.keying u.store) key ss = false) : dictionaryStep (.add h k v) s =
      (.ok .nothing, u.mapRealm (·.replace id
        (.dictionary kt vt (Table.insert (kt.keying u.store) key value ss)))) := by
  refine (entry_run ho hk hv _).trans ?_
  rw [keying, bind_ok (ask_run _ u), if_neg (by rw [hc]; exact Bool.false_ne_true)]
  rfl

theorem dictionaryStep_set_run (ho : s.Opened h (some id) (.dictionary kt vt ss))
    (hk : k.element kt s = (.ok key, u')) (hv : v.element vt u' = (.ok value, u))
    (hw : (Table.get? (kt.keying u.store) key ss).mapM (toObject vt) u = (.ok old, w)) :
    let w' := w.mapRealm (·.replace id
      (.dictionary kt vt (Table.insert (kt.keying u.store) key value ss)))
    dictionaryStep (.set h k v) s = ((old.mapM w'.store.view).map .optional, w') := by
  intro w'
  refine (entry_run ho hk hv _).trans ?_
  rw [keying, bind_ok (ask_run _ u), bind_ok hw]
  exact map_mapM_view_run old w'

theorem dictionaryStep_get_run_of_get?_eq_none {target : Option String}
    (ho : s.Opened h (some id) (.dictionary kt vt ss)) (hk : k.element kt s = (.ok key, u))
    (hg : Table.get? (kt.keying u.store) key ss = none) : dictionaryStep (.get h k target) s =
      (do .error (.collection (.keyNotFound (← kt.display u.store key))), u) := by
  refine (argument_run (openDictionary_run ho) rfl hk _).trans ?_
  rw [keying, bind_ok (ask_run _ u), hg]
  have hquery := query_run (fun s => kt.display s key) u
  cases hd : kt.display u.store key with
  | error e => exact bind_error (hd ▸ hquery) _
  | ok x => exact bind_ok (hd ▸ hquery) _

theorem dictionaryStep_get_run_of_get?_eq_some {target : Option String}
    (ho : s.Opened h (some id) (.dictionary kt vt ss)) (hk : k.element kt s = (.ok key, u))
    (hg : Table.get? (kt.keying u.store) key ss = some value)
    (hw : toObject vt value u = (.ok o, w)) : dictionaryStep (.get h k target) s =
      ((w.store.view o).map .object, (deliver target o w).2) := by
  refine (argument_run (openDictionary_run ho) rfl hk _).trans ?_
  rw [keying, bind_ok (ask_run _ u), hg]
  exact (bind_ok hw _).trans (map_deliver_run o target Answer.object w)

theorem dictionaryStep_tryGet_run (ho : s.Opened h (some id) (.dictionary kt vt ss))
    (hk : k.element kt s = (.ok key, u))
    (hw : (Table.get? (kt.keying u.store) key ss).mapM (toObject vt) u = (.ok old, w)) :
    dictionaryStep (.tryGet h k) s = ((old.mapM w.store.view).map .optional, w) := by
  refine (argument_run (openDictionary_run ho) rfl hk _).trans ?_
  rw [keying, bind_ok (ask_run _ u), bind_ok hw]
  exact map_mapM_view_run old w

theorem dictionaryStep_containsKey_run (ho : s.Opened h (some id) (.dictionary kt vt ss))
    (hk : k.element kt s = (.ok key, u)) : dictionaryStep (.containsKey h k) s =
      (.ok (.flag (Table.contains (kt.keying u.store) key ss)), u) :=
  argument_run (openDictionary_run ho) rfl hk _

theorem dictionaryStep_remove_run (ho : s.Opened h (some id) (.dictionary kt vt ss))
    (hk : k.element kt s = (.ok key, u)) : dictionaryStep (.remove h k) s =
      (.ok (.flag (Table.contains (kt.keying u.store) key ss)), u.mapRealm (·.replace id
        (.dictionary kt vt (Table.erase (kt.keying u.store) key ss)))) :=
  argument_run (openDictionary_run ho) rfl hk _

theorem dictionaryStep_count_run (ho : s.Opened h (some id) (.dictionary kt vt ss)) :
    dictionaryStep (.count h) s = (.ok (.size ss.length), s) :=
  opened_run (openDictionary_run ho) rfl _

theorem dictionaryStep_clear_run (ho : s.Opened h (some id) (.dictionary kt vt ss)) :
    dictionaryStep (.clear h) s =
      (.ok .nothing, s.mapRealm (·.replace id (.dictionary kt vt []))) :=
  opened_run (openDictionary_run ho) rfl _

end Action

namespace Session

variable {s : Session} {h : String} {id : Nat} {kt vt : ElementType}
  {ss : List (Slot kt.Value vt.Value)}

/-- A value that is found becomes an object that stands for it. -/
theorem Sound.foundValue (hs : s.Sound) (ho : s.Opened h (some id) (.dictionary kt vt ss))
    (q : Keying kt.Value) (key : kt.Value) : ∃ old u,
      (Table.get? q key ss).mapM (Action.toObject vt) s = (.ok old, u) ∧ u.Sound ∧ s.Builds u ∧
        Option.Rel (fun v o => u.Holds o ∧ vt.Represents u.store v o) (Table.get? q key ss)
          old := by
  cases hg : Table.get? q key ss with
  | none => exact ⟨none, s, rfl, hs, .refl s, .none⟩
  | some v =>
    have hc := Store.safeAll_dictionary.mp (hs.safeAll_contents ho.2)
    have hsafe : s.store.SafeAll (vt.owned v) := hc.get? hg
    have hmade := Action.toObject_ensures hs vt v hsafe
    have hrep := vt.represents_toObject s.realm v
    exact ⟨_, _, rfl, hmade.sound, hmade.follows, .some ⟨hmade.result _ rfl, hrep⟩⟩

end Session

end CountedObjects
