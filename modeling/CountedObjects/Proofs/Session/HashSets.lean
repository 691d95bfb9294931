import CountedObjects.Proofs.Collection.Lookup
import CountedObjects.Proofs.Session.Contents

/-! What the steps on a hash set do to it and answer. -/
namespace CountedObjects

variable {s u : Session} {h : String} {id : Nat}

namespace Action

section

variable {t : ElementType} {ss : List (Slot t.Value Unit)} {l : Literal} {source : Source}
  {x : t.Value} {xs : List t.Value}

theorem openSet_run (ho : s.Opened h (some id) (.hashSet t ss)) :
    openSet h s = (.ok ⟨some id, t, ss⟩, s) := by
  unfold openSet
  rw [bind_ok (ask_run _ s), bind_ok (ask_run _ s), ho.1, ho.2]
  rfl

/-! The steps with what they are given. -/

theorem setStep_add_run (ho : s.Opened h (some id) (.hashSet t ss))
    (hx : l.element t s = (.ok x, u)) : setStep (.add h l) s =
      (.ok (.flag !(Table.contains (t.keying u.store) x ss)),
        u.mapRealm (·.replace id (.hashSet t (Table.insert (t.keying u.store) x () ss)))) :=
  argument_run (openSet_run ho) rfl hx _

theorem setStep_contains_run (ho : s.Opened h (some id) (.hashSet t ss))
    (hx : l.element t s = (.ok x, u)) : setStep (.contains h l) s =
      (.ok (.flag (Table.contains (t.keying u.store) x ss)), u) :=
  argument_run (openSet_run ho) rfl hx _

theorem setStep_remove_run (ho : s.Opened h (some id) (.hashSet t ss))
    (hx : l.element t s = (.ok x, u)) : setStep (.remove h l) s =
      (.ok (.flag (Table.contains (t.keying u.store) x ss)),
        u.mapRealm (·.replace id (.hashSet t (Table.erase (t.keying u.store) x ss)))) :=
  argument_run (openSet_run ho) rfl hx _

theorem setStep_union_run (ho : s.Opened h (some id) (.hashSet t ss))
    (hx : elementsOf t source s = (.ok xs, u)) : setStep (.union h source) s =
      (.ok (.number (Table.insertAll (t.keying u.store) ss xs).length),
        u.mapRealm (·.replace id (.hashSet t (Table.insertAll (t.keying u.store) ss xs)))) :=
  argument_run (openSet_run ho) rfl hx _

theorem setStep_intersect_run (ho : s.Opened h (some id) (.hashSet t ss))
    (hx : elementsOf t source s = (.ok xs, u)) : setStep (.intersect h source) s =
      (.ok (.number (Table.retain (t.keying u.store) ss xs).length),
        u.mapRealm (·.replace id (.hashSet t (Table.retain (t.keying u.store) ss xs)))) :=
  argument_run (openSet_run ho) rfl hx _

theorem setStep_count_run (ho : s.Opened h (some id) (.hashSet t ss)) :
    setStep (.count h) s = (.ok (.size ss.length), s) :=
  opened_run (openSet_run ho) rfl _

theorem setStep_clear_run (ho : s.Opened h (some id) (.hashSet t ss)) :
    setStep (.clear h) s = (.ok .nothing, s.mapRealm (·.replace id (.hashSet t []))) :=
  opened_run (openSet_run ho) rfl _

end

end Action

end CountedObjects
