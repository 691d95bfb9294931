import CountedObjects.Proofs.Session.ListCalls
import CountedObjects.Proofs.Session.QueueSteps

/-! Queues give their elements out in the order in which these were put in, whatever names they are
called by and whatever is done between the calls. -/
namespace CountedObjects

/-- What is asked of a queue, with the element that was built for it. -/
inductive QueueCall (α : Type)
  | enqueue (x : α)
  | dequeue
  | peek
  | tryDequeue
  | count
  | clear

/-- The name of the queue that a step calls, and the call. -/
def QueueStep.call? (t : ElementType) : QueueStep → Option (String × Action (QueueCall t.Value))
  | enqueue h l => some (h, do return .enqueue (← l.element t))
  | dequeue h _ => some (h, return .dequeue)
  | peek h _ => some (h, return .peek)
  | tryDequeue h _ => some (h, return .tryDequeue)
  | count h => some (h, return .count)
  | clear h => some (h, return .clear)
  | new .. => none

/-- The name under which a step stores the element that it gives out. -/
def QueueStep.target? : QueueStep → Option String
  | dequeue _ target | peek _ target | tryDequeue _ target => target
  | _ => none

/-- The call by a step of the queue with a number, under whatever name. -/
def Step.queueCall? (s : Session) (id : Nat) (t : ElementType) :
    Step → Option (QueueStep × Action (QueueCall t.Value))
  | .queue step =>
    ((step.call? t).bind fun p => if s.handle p.1 = .object id then some p.2 else none).map
      (step, ·)
  | _ => none

/-- What is shown of the element that an answer gives out, if it gives one out. -/
def Answer.given? : Result Answer → Option (Result View)
  | .ok (.object v) => some (.ok v)
  | .ok (.optional v) => v.map .ok
  | .ok _ => none
  | .error (.collection .empty) => none
  | .error e => some (.error e)

/-- A step gives out an element: it answers what is shown of an object that stands for it, to which
the name points afterwards that the step has for it. An object that has no descriptor cannot be
shown, and is not named then. -/
def Session.Hands (s : Session) (t : ElementType) (x : t.Value) (step : QueueStep) : Prop :=
  ∃ (o : Handle) (u : Session), s.store.Precedes u.store ∧ u.Sound ∧ u.store.Safe o ∧
    t.Represents u.store x o ∧
    Answer.given? (s.advance (.queue step)).1.outcome = some (u.store.view o) ∧
    ∀ name v, step.target? = some name → u.store.view o = .ok v →
      (s.advance (.queue step)).2.handle name = o

namespace QueueCall

variable {t : ElementType}

def apply (xs : List t.Value) : QueueCall t.Value → List t.Value
  | enqueue x => xs ++ [x]
  | dequeue | tryDequeue => xs.tail
  | clear => []
  | peek | count => xs

/-- What a call may answer that a step makes. -/
def Answers (s : Session) (xs : List t.Value) (step : QueueStep) : QueueCall t.Value → Prop
  | dequeue | peek =>
    match xs with
    | [] => (s.advance (.queue step)).1.outcome = .error (.collection .empty)
    | x :: _ => s.Hands t x step
  | tryDequeue =>
    match xs with
    | [] => (s.advance (.queue step)).1.outcome = .ok (.optional none)
    | x :: _ => s.Hands t x step
  | enqueue _ | clear => (s.advance (.queue step)).1.outcome = .ok .nothing
  | count => (s.advance (.queue step)).1.outcome = .ok (.size xs.length)

end QueueCall

/-- What became of a queue since it was last cleared: the elements that were in it or were put in,
in this order, and the steps that took one out, each with the state before it. -/
structure QueueLog (t : ElementType) where
  entered : List t.Value
  taken : List (Session × QueueStep)

namespace QueueLog

variable {t : ElementType}

/-- The elements that were taken out, one by each step, are followed by those that are left. -/
def Leaves (log : QueueLog t) (xs : List t.Value) : Prop :=
  ∃ taken, taken ++ xs = log.entered ∧
    List.Forall₂ (fun x p => p.1.Hands t x p.2) taken log.taken

/-- The log after a step. Whether it took an element out is told by its answer. -/
def note (log : QueueLog t) (s : Session) (id : Nat) (step : Step) : QueueLog t :=
  match step.queueCall? s id t with
  | none => log
  | some (call, a) =>
    match (a s).1 with
    | .ok (.enqueue x) => { log with entered := log.entered ++ [x] }
    | .ok .clear => ⟨[], []⟩
    | .ok .dequeue | .ok .tryDequeue =>
      if (Answer.given? (s.advance step).1.outcome).isSome then
        { log with taken := log.taken ++ [(s, call)] }
      else log
    | _ => log

/-- The log after some steps. -/
def noteAll (id : Nat) : QueueLog t → Session → List Step → QueueLog t
  | log, _, [] => log
  | log, s, step :: steps => noteAll id (log.note s id step) (s.advance step).2 steps

end QueueLog

namespace Session

/-- The object with a number is a queue with the elements, its front first. -/
def HasQueue (s : Session) (id : Nat) (t : ElementType) (xs : List t.Value) : Prop :=
  s.store.contents? (.object id) = some (.queue t xs)

/-- The elements that were taken out of a queue and those that are in it are the ones that entered
it, in this order. It is empty if as many were taken out as entered. What is peeked at is what would
be taken out next, and stays. -/
structure Fifo (s : Session) (id : Nat) (t : ElementType) (log : QueueLog t) : Prop where
  order : ∃ items, s.HasQueue id t items ∧ log.Leaves items
  empty : ∀ h target, s.handle h = .object id →
    ((s.advance (.queue (.dequeue h target))).1.outcome = .error (.collection .empty) ↔
      log.entered.length = log.taken.length) ∧
    ((s.advance (.queue (.peek h target))).1.outcome = .error (.collection .empty) ↔
      log.entered.length = log.taken.length) ∧
    ((s.advance (.queue (.tryDequeue h target))).1.outcome = .ok (.optional none) ↔
      log.entered.length = log.taken.length)
  refused : ∀ h target items, s.handle h = .object id → s.HasQueue id t items →
    log.entered.length = log.taken.length →
      ∀ step ∈ [QueueStep.dequeue h target, .peek h target, .tryDequeue h target],
        (s.advance (.queue step)).2.HasQueue id t items
  answers : ∀ h (step : QueueStep) a c u items, s.handle h = .object id → s.HasQueue id t items →
    step.call? t = some (h, a) → a s = (.ok c, u) → c.Answers s items step
  peek : ∀ h h' target target', s.handle h = .object id → s.handle h' = .object id →
    let r := (s.advance (.queue (.peek h target))).1.outcome
    r = (s.advance (.queue (.dequeue h' target'))).1.outcome ∧
      Answer.given? r = Answer.given? (s.advance (.queue (.tryDequeue h' target'))).1.outcome
  peeked : ∀ h target, s.handle h = .object id →
    let u := (s.advance (.queue (.peek h target))).2
    (∀ name, target ≠ some name → u.handle name = s.handle name) ∧
      ∀ j c, s.store.contents? (.object j) = some c → u.store.IsLive j →
        u.store.contents? (.object j) = some c

variable {s u w : Session} {h h' : String} {id : Nat} {t : ElementType} {x : t.Value}
  {xs : List t.Value} {step : QueueStep} {a : Action (QueueCall t.Value)}
  {c : QueueCall t.Value} {o : Handle} {g : View → Answer} {log : QueueLog t}

/-- How a step on a queue ends: it fails as its argument does, or it comes to a state in which the
queue is as the call leaves it, and does no more than to give something out. -/
inductive Attended (s : Session) (id : Nat) (t : ElementType) (xs : List t.Value)
    (step : QueueStep) (a : Action (QueueCall t.Value)) : Prop
  | failed (e : Fault) (u : Session) (run : a s = (.error e, u)) (sound : u.Sound)
    (builds : s.Builds u) (ends : Action.queueStep step s = (.error e, u))
  | ended (c : QueueCall t.Value) (u w : Session) (run : a s = (.ok c, u))
    (holds : w.HasQueue id t (c.apply xs)) (leads : Leads .nothing w (Action.queueStep step s).2)
    (answers : c.Answers s xs step)

theorem Opened.hasQueue_replace {ys : List t.Value} (ho : s.Opened h (some id) (.queue t xs))
    (hs : s.Sound) (hys : ∀ y ∈ ys, s.store.SafeAll (t.owned y)) :
    (s.mapRealm (·.replace id (.queue t ys))).HasQueue id t ys :=
  ho.contents?_replace hs rfl (Store.safeAll_queue.mpr hys)

/-- What a step gives out that ends with showing an object made for an element. -/
theorem Builds.hands (hb : s.Builds u) (hp : u.store.Precedes w.store) (hw : w.Sound)
    (hh : w.Holds o) (hx : t.Represents u.store x o)
    (hg : ∀ v, Answer.given? (.ok (g v)) = some (.ok v))
    (hrun : Action.queueStep step s =
      ((w.store.view o).map g, (Action.deliver step.target? o w).2)) : s.Hands t x step := by
  have hsafe := hw.safe_of_holds hh
  refine ⟨o, w, hb.store.toPrecedes.trans hp, hw, hsafe, hx.mono hp hsafe, ?_, ?_⟩
  · rw [outcome_advance (.queue step) hrun]
    cases hv : w.store.view o with
    | error e =>
      cases w.store.view_shows o e hv
      rfl
    | ok v => exact hg v
  · intro name v htarget hv
    rw [advance_eq_endStep (.queue step) hrun, endStep_handle, htarget, Action.handle_deliver hv]

/-- How a step ends that gives out the front of a queue and leaves the queue as it is in `w`. -/
theorem Attended.of_front {ys : List t.Value} (hs : s.Sound) (hrun : a s = (.ok c, s))
    (hsafe : s.store.SafeAll (t.owned x)) (hw : w.Sound)
    (hp : (Action.toObject t x s).2.store.Precedes w.store)
    (hheld : (Action.toObject t x s).2.held <:+ w.held)
    (hitems : w.HasQueue id t (c.apply (x :: ys)))
    (hg : ∀ v, Answer.given? (.ok (g v)) = some (.ok v))
    (hanswers : s.Hands t x step → c.Answers s (x :: ys) step)
    (hends : Action.queueStep step s = ((w.store.view (s.realm.toObject t x).1).map g,
      (Action.deliver step.target? (s.realm.toObject t x).1 w).2)) :
    s.Attended id t (x :: ys) step a := by
  have hmade := Action.toObject_ensures hs t x hsafe
  have hholds : w.Holds (s.realm.toObject t x).1 := (hmade.result _ rfl).mono hheld
  have hgiven := hmade.follows.hands hp hw hholds (t.represents_toObject s.realm x) hg hends
  refine .ended c s w hrun hitems ?_ (hanswers hgiven)
  rw [hends]
  exact (Action.deliver_ensures hw (hw.safe_of_holds hholds) step.target?).follows

/-- How a step ends that ends in a state with the queue as the call leaves it. -/
theorem Attended.of_run {r : Result Answer} (hrun : a s = (.ok c, u))
    (hitems : w.HasQueue id t (c.apply xs)) (hends : Action.queueStep step s = (r, w))
    (hanswers : (s.advance (.queue step)).1.outcome = r → c.Answers s xs step) :
    s.Attended id t xs step a := by
  refine .ended c u w hrun hitems ?_ (hanswers (outcome_advance (.queue step) hends))
  rw [hends]
  exact .refl w

/-- The front of a queue becomes an object, and the queue is left with what is behind it. -/
theorem Sound.behind_front (hs : s.Sound) (ho : s.Opened h (some id) (.queue t (x :: xs))) :
    let u := (Action.toObject t x s).2
    let w := u.mapRealm (·.replace id (.queue t xs))
    u.Sound ∧ u.Holds (s.realm.toObject t x).1 ∧ w.Sound ∧ w.HasQueue id t xs := by
  intro u w
  have hmade := Action.toObject_ensures hs t x (ho.safeAll_queue hs x (List.mem_cons_self ..))
  have hopened := ho.mono hmade.follows
  have hxs : ∀ y ∈ xs, u.store.SafeAll (t.owned y) :=
    fun y hy => hopened.safeAll_queue hmade.sound y (List.mem_cons_of_mem x hy)
  exact ⟨hmade.sound, hmade.result _ rfl,
    Store.Sound.replace hmade.sound (Store.safeAll_queue.mpr hxs) id,
    hopened.hasQueue_replace hmade.sound hxs⟩

theorem Sound.attended (hs : s.Sound) (ho : s.Opened h (some id) (.queue t xs))
    (hc : step.call? t = some (h, a)) : s.Attended id t xs step a := by
  have hopen := Action.openQueue_run ho
  have safe_front : ∀ {x xs}, s.Opened h (some id) (.queue t (x :: xs)) →
      s.store.SafeAll (t.owned x) := fun ho => ho.safeAll_queue hs _ (List.mem_cons_self ..)
  cases step with
  | enqueue _ l =>
    cases hc
    rcases (Action.element_ensures hs t l).error_or_ok with
      ⟨e, u, hx, hu, hb⟩ | ⟨x, u, hx, hu, hb, hsafe⟩
    · exact .failed e u (Action.bind_error hx _) hu hb (Action.argument_run_error hopen hx _)
    · have hxs : ∀ y ∈ xs ++ [x], u.store.SafeAll (t.owned y) :=
        List.forall_mem_append.mpr
          ⟨(ho.mono hb).safeAll_queue hu, List.forall_mem_singleton.mpr hsafe⟩
      exact .of_run (c := .enqueue x) (Action.bind_ok hx _) ((ho.mono hb).hasQueue_replace hu hxs)
        (Action.queueStep_enqueue_run ho hx) fun h => h
  | dequeue _ target =>
    cases hc
    cases xs with
    | nil =>
      exact .of_run (c := .dequeue) rfl ho.2 (Action.queueStep_dequeue_run_nil ho target) fun h => h
    | cons x xs =>
      obtain ⟨-, -, hw, hitems⟩ := hs.behind_front ho
      exact .of_front (c := .dequeue) hs rfl (safe_front ho) hw (precedes_replace _ id _)
        List.suffix_rfl hitems (fun _ => rfl) (fun h => h)
        (Action.queueStep_dequeue_run ho target rfl)
  | peek _ target =>
    cases hc
    cases xs with
    | nil =>
      exact .of_run (c := .peek) rfl ho.2 (Action.queueStep_peek_run_nil ho target) fun h => h
    | cons x xs =>
      have hmade := Action.toObject_ensures hs t x (safe_front ho)
      exact .of_front (c := .peek) hs rfl (safe_front ho) hmade.sound (.refl _) List.suffix_rfl
        (hmade.follows.store.contents? ho.2) (fun _ => rfl) (fun h => h)
        (Action.queueStep_peek_run ho target rfl)
  | tryDequeue _ target =>
    cases hc
    cases xs with
    | nil =>
      exact .of_run (c := .tryDequeue) rfl ho.2 (Action.queueStep_tryDequeue_run_nil ho target)
        fun h => h
    | cons x xs =>
      obtain ⟨-, -, hw, hitems⟩ := hs.behind_front ho
      exact .of_front (c := .tryDequeue) hs rfl (safe_front ho) hw (precedes_replace _ id _)
        List.suffix_rfl hitems (fun _ => rfl) (fun h => h)
        (Action.queueStep_tryDequeue_run ho target rfl)
  | count _ =>
    cases hc
    exact .of_run (c := .count) rfl ho.2 (Action.queueStep_count_run ho) fun h => h
  | clear _ =>
    cases hc
    exact .of_run (c := .clear) rfl (ho.hasQueue_replace hs (List.forall_mem_nil _))
      (Action.queueStep_clear_run ho) fun h => h
  | new => cases hc

theorem queueCall?_eq_some {step : Step} {call : QueueStep}
    (hc : step.queueCall? s id t = some (call, a)) :
    ∃ h, step = .queue call ∧ call.call? t = some (h, a) ∧ s.handle h = .object id := by
  cases step with
  | queue step' =>
    obtain ⟨a', ha, e⟩ := Option.map_eq_some_iff.mp hc
    cases e
    obtain ⟨h, hcall, hid⟩ := call_eq_some_iff.mp ha
    exact ⟨h, rfl, hcall, hid⟩
  | _ => cases hc

/-- A step that does not call a queue does not change it. -/
theorem not_scope_of_queueCall?_eq_none {step : Step} (hc : step.queueCall? s id t = none) :
    ¬ (step.scope s).objects id (.collection (.queue t xs)) := by
  intro hw
  cases step with
  | queue step =>
    obtain ⟨h, hname, hid⟩ := Option.map_eq_some_iff.mp hw.1
    cases step with
    | new | peek | count => cases hname
    | _ =>
      cases hname
      exact absurd hc (by simp [Step.queueCall?, QueueStep.call?, hid])
  | set step =>
    obtain ⟨-, t', ss, hb⟩ := hw
    cases hb
  | dictionary step =>
    obtain ⟨-, k, v, ss, hb⟩ := hw
    cases hb
  | list step =>
    obtain ⟨-, t', xs', hb⟩ := hw
    cases hb
  | handle | type | enumeration | activator => exact hw.elim

namespace HasQueue

theorem isLive (hx : s.HasQueue id t xs) : s.store.IsLive id := by
  obtain ⟨c, hc, -⟩ := Store.contents?_object.mp hx
  exact ⟨c, hc⟩

theorem other {step : Step} (hx : s.HasQueue id t xs) (hs : s.Settled)
    (hc : step.queueCall? s id t = none) (hl : (s.advance step).2.store.IsLive id) :
    (s.advance step).2.HasQueue id t xs := by
  refine hs.contents?_of_not_scope hx hl fun x hkind => ?_
  cases x with
  | queue t' ys =>
    cases hkind
    exact not_scope_of_queueCall?_eq_none hc
  | _ => cases hkind

theorem apply (hx : s.HasQueue id t xs) (hs : s.Settled) (hid : s.handle h = .object id)
    (hc : step.call? t = some (h, a)) (hrun : a s = (.ok c, u)) : c.Answers s xs step ∧
      ((s.advance (.queue step)).2.store.IsLive id →
        (s.advance (.queue step)).2.HasQueue id t (c.apply xs)) := by
  cases hs.sound.attended ⟨hid, hx⟩ hc with
  | failed e u' run => cases run.symm.trans hrun
  | ended c' u' w run holds leads answers =>
    cases run.symm.trans hrun
    exact ⟨answers, contents?_of_leads (.queue step) holds leads⟩

theorem error {e : Fault} (hx : s.HasQueue id t xs) (hs : s.Settled)
    (hid : s.handle h = .object id) (hc : step.call? t = some (h, a))
    (hrun : a s = (.error e, u)) : (s.advance (.queue step)).2.HasQueue id t xs := by
  have ho : s.Opened h (some id) (.queue t xs) := ⟨hid, hx⟩
  cases hs.sound.attended ho hc with
  | failed e' u' run sound builds ends =>
    exact (ho.mono builds).contents?_of_run sound (.queue step) ends
  | ended c u' w run => cases run.symm.trans hrun

end HasQueue

theorem Hands.isSome_given? (h : s.Hands t x step) :
    (Answer.given? (s.advance (.queue step)).1.outcome).isSome := by
  obtain ⟨o, u, -, -, -, -, hg, -⟩ := h
  rw [hg]
  rfl

theorem Hands.outcome_ne {r : Result Answer} (h : s.Hands t x step) (hr : Answer.given? r = none) :
    (s.advance (.queue step)).1.outcome ≠ r := by
  intro he
  have hsome := h.isSome_given?
  rw [he, hr] at hsome
  cases hsome

end Session

namespace QueueLog

variable {s u : Session} {id : Nat} {t : ElementType} {x : t.Value} {xs : List t.Value}
  {log : QueueLog t} {step : Step} {call : QueueStep} {a : Action (QueueCall t.Value)}
  {c : QueueCall t.Value}

theorem Leaves.length_eq_iff (h : log.Leaves xs) :
    log.entered.length = log.taken.length ↔ xs = [] := by
  obtain ⟨taken, hentered, hall⟩ := h
  rw [← hentered, ← hall.length_eq, List.length_append, Nat.add_eq_left,
    List.length_eq_zero_iff]

theorem Leaves.enqueue (h : log.Leaves xs) (x : t.Value) :
    ({ log with entered := log.entered ++ [x] } : QueueLog t).Leaves (xs ++ [x]) := by
  obtain ⟨taken, hentered, hall⟩ := h
  refine ⟨taken, ?_, hall⟩
  rw [← List.append_assoc, hentered]

theorem Leaves.take (h : log.Leaves (x :: xs)) (hx : s.Hands t x call) :
    ({ log with taken := log.taken ++ [(s, call)] } : QueueLog t).Leaves xs := by
  obtain ⟨taken, hentered, hall⟩ := h
  refine ⟨taken ++ [x], ?_, List.rel_append hall (.cons hx .nil)⟩
  rw [List.append_assoc]
  exact hentered

/-- What a call leaves, if it answers as it may. -/
theorem Leaves.called (h : log.Leaves xs)
    (hc : (Step.queue call).queueCall? s id t = some (call, a)) (hrun : a s = (.ok c, u))
    (hans : c.Answers s xs call) : (log.note s id (.queue call)).Leaves (c.apply xs) := by
  unfold note
  simp only [hc, hrun]
  cases c with
  | enqueue x => exact h.enqueue x
  | dequeue | tryDequeue =>
    cases xs with
    | nil =>
      have hnone : Answer.given? (s.advance (.queue call)).1.outcome = none :=
        congrArg Answer.given? hans
      rw [hnone]
      exact h
    | cons x xs =>
      have hx : s.Hands t x call := hans
      rw [if_pos hx.isSome_given?]
      exact h.take hx
  | peek | count => exact h
  | clear => exact ⟨[], rfl, .nil⟩

end QueueLog

namespace Session

variable {s u : Session} {h h' : String} {id : Nat} {t : ElementType} {x : t.Value}
  {xs : List t.Value} {log : QueueLog t}

namespace HasQueue

theorem note (hx : s.HasQueue id t xs) (hs : s.Settled) (hlog : log.Leaves xs) (step : Step)
    (hl : (s.advance step).2.store.IsLive id) :
    ∃ ys, (s.advance step).2.HasQueue id t ys ∧ (log.note s id step).Leaves ys := by
  cases hc : step.queueCall? s id t with
  | none =>
    refine ⟨xs, hx.other hs hc hl, ?_⟩
    rw [QueueLog.note, hc]
    exact hlog
  | some p =>
    obtain ⟨call, a⟩ := p
    obtain ⟨h, rfl, hcall, hid⟩ := queueCall?_eq_some hc
    rcases hrun : a s with ⟨e | c, u⟩
    · refine ⟨xs, hx.error hs hid hcall hrun, ?_⟩
      rw [QueueLog.note, hc]
      simp only [hrun]
      exact hlog
    · obtain ⟨hans, hitems⟩ := hx.apply hs hid hcall hrun
      exact ⟨c.apply xs, hitems hl, hlog.called hc hrun hans⟩

theorem noteAll (hx : s.HasQueue id t xs) (hs : s.Settled) (hlog : log.Leaves xs)
    (later : List Step) (hl : (s.advanceAll later).2.store.IsLive id) :
    ∃ ys, (s.advanceAll later).2.HasQueue id t ys ∧ (log.noteAll id s later).Leaves ys := by
  induction later generalizing s xs log with
  | nil => exact ⟨xs, hx, hlog⟩
  | cons step later ih =>
    have hlive := isLive_advance_of_advanceAll hs hx.isLive hl
    obtain ⟨ys, hys, hlog'⟩ := hx.note hs hlog step hlive
    exact ih hys (advance_settled hs step).1 hlog' hl

/-- What is peeked at and what is taken out are shown alike. -/
theorem outcome_peek (hx : s.HasQueue id t xs) (hs : s.Settled) (hid : s.handle h = .object id)
    (hid' : s.handle h' = .object id) (target target' : Option String) :
    (s.advance (.queue (.peek h target))).1.outcome =
      (s.advance (.queue (.dequeue h' target'))).1.outcome ∧
    Answer.given? (s.advance (.queue (.peek h target))).1.outcome =
      Answer.given? (s.advance (.queue (.tryDequeue h' target'))).1.outcome := by
  cases xs with
  | nil =>
    have ho : s.Opened h (some id) (.queue t []) := ⟨hid, hx⟩
    have ho' : s.Opened h' (some id) (.queue t []) := ⟨hid', hx⟩
    have hpeek := Action.queueStep_peek_run_nil ho target
    have htake := Action.queueStep_dequeue_run_nil ho' target'
    have htry := Action.queueStep_tryDequeue_run_nil ho' target'
    rw [outcome_advance (.queue (.peek h target)) hpeek,
      outcome_advance (.queue (.dequeue h' target')) htake,
      outcome_advance (.queue (.tryDequeue h' target')) htry]
    exact ⟨rfl, rfl⟩
  | cons x xs =>
    have ho : s.Opened h (some id) (.queue t (x :: xs)) := ⟨hid, hx⟩
    have ho' : s.Opened h' (some id) (.queue t (x :: xs)) := ⟨hid', hx⟩
    obtain ⟨hu, hheld, hw, -⟩ := hs.sound.behind_front ho
    have hview := (precedes_replace (Action.toObject t x s).2 id (.queue t xs)).view_eq hu hw
      (hu.safe_of_holds hheld) (hw.safe_of_holds (hheld.mono List.suffix_rfl))
    have hmade : Action.toObject t x s =
      (.ok (s.realm.toObject t x).1, (Action.toObject t x s).2) := rfl
    have hpeek := Action.queueStep_peek_run ho target hmade
    have htake := Action.queueStep_dequeue_run ho' target' hmade
    have htry := Action.queueStep_tryDequeue_run ho' target' hmade
    rw [outcome_advance (.queue (.peek h target)) hpeek,
      outcome_advance (.queue (.dequeue h' target')) htake,
      outcome_advance (.queue (.tryDequeue h' target')) htry, hview]
    refine ⟨rfl, ?_⟩
    cases (Action.toObject t x s).2.store.view (s.realm.toObject t x).1 with
    | error e => rfl
    | ok v => rfl

theorem empty (hx : s.HasQueue id t xs) (hs : s.Settled) (hid : s.handle h = .object id)
    (target : Option String) :
    ((s.advance (.queue (.dequeue h target))).1.outcome = .error (.collection .empty) ↔ xs = []) ∧
    ((s.advance (.queue (.peek h target))).1.outcome = .error (.collection .empty) ↔ xs = []) ∧
    ((s.advance (.queue (.tryDequeue h target))).1.outcome = .ok (.optional none) ↔ xs = []) := by
  have htake : QueueCall.Answers s xs (.dequeue h target) .dequeue :=
    (hx.apply hs hid rfl rfl).1
  have hpeek : QueueCall.Answers s xs (.peek h target) .peek := (hx.apply hs hid rfl rfl).1
  have htry : QueueCall.Answers s xs (.tryDequeue h target) .tryDequeue :=
    (hx.apply hs hid rfl rfl).1
  cases xs with
  | nil => exact ⟨iff_of_true htake rfl, iff_of_true hpeek rfl, iff_of_true htry rfl⟩
  | cons x ys =>
    have hne : ¬ x :: ys = [] := List.cons_ne_nil x ys
    exact ⟨iff_of_false (Hands.outcome_ne htake rfl) hne,
      iff_of_false (Hands.outcome_ne hpeek rfl) hne, iff_of_false (Hands.outcome_ne htry rfl) hne⟩

theorem refused (hx : s.HasQueue id t []) (hs : s.Settled) (hid : s.handle h = .object id)
    (target : Option String) :
    ∀ step ∈ [QueueStep.dequeue h target, .peek h target, .tryDequeue h target],
      (s.advance (.queue step)).2.HasQueue id t [] := by
  have ho : s.Opened h (some id) (.queue t []) := ⟨hid, hx⟩
  intro step hm
  simp only [List.mem_cons, List.not_mem_nil, or_false] at hm
  rcases hm with rfl | rfl | rfl
  · exact ho.contents?_of_run hs.sound (.queue _) (Action.queueStep_dequeue_run_nil ho target)
  · exact ho.contents?_of_run hs.sound (.queue _) (Action.queueStep_peek_run_nil ho target)
  · exact ho.contents?_of_run hs.sound (.queue _) (Action.queueStep_tryDequeue_run_nil ho target)

/-- To peek at a queue changes no name but the one that the element is stored under. -/
theorem handle_peek (hx : s.HasQueue id t xs) (hs : s.Settled) (hid : s.handle h = .object id)
    {target : Option String} {name : String} (hn : target ≠ some name) :
    (s.advance (.queue (.peek h target))).2.handle name = s.handle name := by
  cases xs with
  | nil =>
    have hrun := Action.queueStep_peek_run_nil ⟨hid, hx⟩ target
    rw [advance_eq_endStep (.queue (.peek h target)) hrun, endStep_handle]
  | cons x xs =>
    have ho : s.Opened h (some id) (.queue t (x :: xs)) := ⟨hid, hx⟩
    have hrun := Action.queueStep_peek_run ho target rfl
    have hmade := Action.toObject_ensures hs.sound t x
      (ho.safeAll_queue hs.sound x (List.mem_cons_self ..))
    rw [advance_eq_endStep (.queue (.peek h target)) hrun, endStep_handle,
      Action.handle_deliver_of_ne hn]
    exact hmade.follows.handle name

theorem fifo (hx : s.HasQueue id t xs) (hs : s.Settled) (hlog : log.Leaves xs) :
    s.Fifo id t log where
  order := ⟨xs, hx, hlog⟩
  empty h target hid := by
    rw [hlog.length_eq_iff]
    exact hx.empty hs hid target
  refused h target items hid hitems hlen := by
    cases hx.symm.trans hitems
    rw [hlog.length_eq_iff] at hlen
    subst hlen
    exact hx.refused hs hid target
  answers _ _ _ _ _ _ hid hitems hc hrun := (hitems.apply hs hid hc hrun).1
  peek h h' target target' hid hid' := hx.outcome_peek hs hid hid' target target'
  peeked h target hid := by
    refine ⟨fun name hn => hx.handle_peek hs hid hn, fun j c hc hl => ?_⟩
    refine hs.contents?_of_not_scope hc hl fun y _ hw => ?_
    cases hw.1

end HasQueue

/-- After any steps, and any more as long as the queue is there, its elements have come out in the
order in which they entered it. -/
theorem run_fifo (steps later : List Step) (hx : (start.advanceAll steps).2.HasQueue id t xs)
    (hl : ((start.advanceAll steps).2.advanceAll later).2.store.IsLive id) :
    ((start.advanceAll steps).2.advanceAll later).2.Fifo id t
      (QueueLog.noteAll id ⟨xs, []⟩ (start.advanceAll steps).2 later) := by
  have hs := run_settled steps
  have hstart : (⟨xs, []⟩ : QueueLog t).Leaves xs := ⟨[], rfl, .nil⟩
  obtain ⟨ys, hys, hlog⟩ := hx.noteAll hs hstart later hl
  exact hys.fifo (advanceAll_settled hs later) hlog

/-- A queue under two names. It is cleared after an element was taken out, and filled again. -/
theorem run_fifo_cleared :
    ∃ steps later, (start.advanceAll steps).2.HasQueue 0 .string ["a"] ∧
      let w := ((start.advanceAll steps).2.advanceAll later).2
      w.HasQueue 0 .string ["d"] ∧
        w.Fifo 0 .string (QueueLog.noteAll 0 ⟨["a"], []⟩ (start.advanceAll steps).2 later) := by
  have hx : (start.advanceAll [.queue (.new "q" .string), .queue (.enqueue "q" (.text "a")),
      .handle (.copy "p" "q")]).2.HasQueue 0 .string ["a"] := by
    unfold HasQueue
    decide +kernel
  have hlast : ((start.advanceAll [.queue (.new "q" .string), .queue (.enqueue "q" (.text "a")),
      .handle (.copy "p" "q")]).2.advanceAll [.queue (.enqueue "p" (.text "b")),
        .queue (.dequeue "q" none), .queue (.clear "p"), .queue (.enqueue "q" (.text "c")),
        .queue (.enqueue "p" (.text "d")), .queue (.tryDequeue "p" none)]).2.HasQueue 0 .string
          ["d"] := by
    unfold HasQueue
    decide +kernel
  have hl := hlast.isLive
  exact ⟨_, _, hx, hlast, run_fifo _ _ hx hl⟩

end Session

end CountedObjects
