import CountedObjects.Proofs.Session.ListSteps

/-! What the steps on a queue do to it and answer. -/
namespace CountedObjects.Action

variable {s u w : Session} {h : String} {id : Nat} {t : ElementType} {xs : List t.Value}
  {x : t.Value} {l : Literal} {o : Handle}

theorem openQueue_run (ho : s.Opened h (some id) (.queue t xs)) :
    openQueue h s = (.ok ⟨some id, t, xs⟩, s) := by
  unfold openQueue
  rw [bind_ok (ask_run _ s), bind_ok (ask_run _ s), ho.1, ho.2]
  rfl

theorem queueStep_enqueue_run (ho : s.Opened h (some id) (.queue t xs))
    (hx : l.element t s = (.ok x, u)) : queueStep (.enqueue h l) s =
      (.ok .nothing, u.mapRealm (·.replace id (.queue t (xs ++ [x])))) :=
  argument_run (openQueue_run ho) rfl hx _

theorem queueStep_clear_run (ho : s.Opened h (some id) (.queue t xs)) :
    queueStep (.clear h) s = (.ok .nothing, s.mapRealm (·.replace id (.queue t []))) :=
  opened_run (openQueue_run ho) rfl _

theorem queueStep_count_run (ho : s.Opened h (some id) (.queue t xs)) :
    queueStep (.count h) s = (.ok (.size xs.length), s) :=
  opened_run (openQueue_run ho) rfl _

/-! An empty queue has nothing to give. -/

section Empty

variable (ho : s.Opened h (some id) (.queue t [])) (target : Option String)

include ho

theorem queueStep_dequeue_run_nil :
    queueStep (.dequeue h target) s = (.error (.collection .empty), s) :=
  opened_run (openQueue_run ho) rfl _

theorem queueStep_peek_run_nil :
    queueStep (.peek h target) s = (.error (.collection .empty), s) :=
  opened_run (openQueue_run ho) rfl _

theorem queueStep_tryDequeue_run_nil :
    queueStep (.tryDequeue h target) s = (.ok (.optional none), s) :=
  opened_run (openQueue_run ho) rfl _

end Empty

/-! The element at the front becomes an object that is shown, and stored under a name if one is
given. -/

section Front

variable (ho : s.Opened h (some id) (.queue t (x :: xs))) (target : Option String)
  (hw : toObject t x s = (.ok o, w))

include ho hw

theorem queueStep_dequeue_run :
    let w' := w.mapRealm (·.replace id (.queue t xs))
    queueStep (.dequeue h target) s =
      ((w'.store.view o).map .object, (deliver target o w').2) := by
  intro w'
  refine (opened_run (openQueue_run ho) rfl _).trans ?_
  refine (bind_ok (ofResult_ok (x, xs) s) _).trans ?_
  exact (bind_ok hw _).trans (map_deliver_run o target Answer.object w')

theorem queueStep_tryDequeue_run :
    let w' := w.mapRealm (·.replace id (.queue t xs))
    queueStep (.tryDequeue h target) s =
      ((w'.store.view o).map fun v => .optional (some v), (deliver target o w').2) := by
  intro w'
  refine (opened_run (openQueue_run ho) rfl _).trans ?_
  exact (bind_ok hw _).trans (map_deliver_run o target (fun v => Answer.optional (some v)) w')

theorem queueStep_peek_run :
    queueStep (.peek h target) s = ((w.store.view o).map .object, (deliver target o w).2) := by
  refine (opened_run (openQueue_run ho) rfl _).trans ?_
  refine (bind_ok (ofResult_ok x s) _).trans ?_
  exact (bind_ok hw _).trans (map_deliver_run o target Answer.object w)

end Front

end CountedObjects.Action
