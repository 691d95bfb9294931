import CountedObjects.Proofs.Elements
import CountedObjects.Proofs.Session.Contents

/-! Enumerators give the elements that a collection had when they were opened, whatever becomes of
the collection and of its elements. What an enumerator has still to give it keeps alive, and it lets
go of each object when it gives it. -/
namespace CountedObjects

/-- Whether a step takes the next object of an enumerator. -/
def Step.takes (e : String) : Step → Bool
  | .handle (.next f _) => f == e
  | _ => false

theorem Step.exists_of_takes {e : String} {step : Step} (h : step.takes e = true) :
    ∃ target, step = .handle (.next e target) := by
  cases step with
  | handle step =>
    cases step with
    | next f target => exact ⟨target, by rw [eq_of_beq h]⟩
    | _ => cases h
  | _ => cases h

/-- A step that neither replaces an enumerator nor drops it. -/
def Step.Spares (e : String) : Step → Prop
  | .handle (.openEnumerator _ f) | .handle (.snapshot f _) | .handle (.rest f) => f ≠ e
  | _ => True

namespace Session

/-- What an enumerator answers that gives an object or has come to its end. -/
def nextAnswer (s : Session) : Option Handle → Result Answer
  | none => .ok (.optional none)
  | some o => (s.store.view o).map fun v => .optional (some v)

/-- What the steps answer that take the objects of an enumerator. -/
def yields (e : String) : Session → List Step → List (Result Answer)
  | _, [] => []
  | s, step :: steps =>
    (if step.takes e then [(s.advance step).1.outcome] else []) ++ yields e (s.advance step).2 steps

/-- An enumerator that has some objects still to give keeps them alive. A step that takes one gives
the first and lets go of it, unless a name gets it, which then holds it in place of the enumerator.
A step that drops the enumerator lets go of all of them. -/
structure Enumerates (s : Session) (e : String) (x : Enumerator) : Prop where
  lookup : s.enumerators.lookup e = some x
  safe : s.store.SafeAll x.items
  gives : ∀ target,
    (s.advance (.handle (.next e target))).1.outcome = s.nextAnswer x.items.head?
  names : ∀ o rest v name, x.items = o :: rest → s.store.view o = .ok v →
    (s.advance (.handle (.next e (some name)))).2.handle name = o ∧
      (s.advance (.handle (.next e (some name)))).2.store =
        ((s.store.attach o).releaseAll [s.handle name]).releaseAll [o]
  releases : ∀ o rest, x.items = o :: rest →
    (s.advance (.handle (.next e none))).2.store = s.store.releaseAll [o]
  refs : ∀ id rest, x.items = .object id :: rest →
    (s.advance (.handle (.next e none))).2.store.refs id + 1 = s.store.refs id
  lists : (s.advance (.handle (.rest e))).1.outcome =
    (s.store.views x.items).map fun vs => .objects (if x.isUnordered then View.sort vs else vs)
  drops : (s.advance (.handle (.rest e))).2.store = s.store.releaseAll x.items
  closes : ∀ h, s.store.contents? (s.handle h) = none →
    (s.advance (.handle (.openEnumerator h e))).2.store = s.store.releaseAll x.items
  reopens : ∀ h c, s.store.contents? (s.handle h) = some c →
    (s.advance (.handle (.openEnumerator h e))).2.store =
      (s.realm.enumerate c).2.store.releaseAll x.items

end Session

namespace Action

variable {s : Session} {e h : String} {o : Handle} {rest : List Handle} {c : Contents}

/-! The steps on enumerators. -/

theorem next_run_nil (hi : (s.enumerator e).items = []) (target : Option String) :
    handleStep (.next e target) s = (.ok (.optional none), s) := by
  have ht : s.takeNext? e = none := by
    unfold Session.takeNext?
    simp only [hi]
  refine (bind_ok (get_run s) _).trans ?_
  simp only [ht]
  rfl

/-- The state in which a step has taken the next object of an enumerator. -/
def took (s : Session) (e : String) (o : Handle) (rest : List Handle) : Session :=
  { s with
    enumerators := Named.set e ⟨rest, (s.enumerator e).isUnordered⟩ s.enumerators
    held := o :: s.held }

theorem next_run_cons (hi : (s.enumerator e).items = o :: rest) (target : Option String) :
    handleStep (.next e target) s = ((s.store.view o).map fun v => .optional (some v),
      (deliver target o (took s e o rest)).2) := by
  have ht : s.takeNext? e = some (o, took s e o rest) := by
    unfold Session.takeNext?
    simp only [hi]
    rfl
  refine (bind_ok (get_run s) _).trans ?_
  simp only [ht]
  exact map_deliver_run o target (fun v => Answer.optional (some v)) (took s e o rest)

theorem enumerators_deliver (o : Handle) (target : Option String) (s : Session) :
    (deliver target o s).2.enumerators = s.enumerators := by
  rw [deliver_run]
  cases s.store.view o <;> cases target <;> rfl

theorem map_listed_run (isUnordered : Bool) (hs : List Handle) (s : Session) :
    (do return Answer.objects (← listed isUnordered hs) : Action Answer) s =
      ((s.store.views hs).map fun vs => .objects (if isUnordered then View.sort vs else vs),
        s) := by
  have hviews : views hs s = (s.store.views hs, s) := query_run _ s
  unfold listed
  rw [bind_assoc]
  cases hv : s.store.views hs with
  | error f => exact bind_error (hv ▸ hviews) _
  | ok vs => exact bind_ok (hv ▸ hviews) _

theorem rest_run {x : Enumerator} (hl : s.enumerators.lookup e = some x) :
    handleStep (.rest e) s =
      ((s.store.views x.items).map fun vs => .objects (if x.isUnordered then View.sort vs else vs),
        { s with enumerators := Named.erase e s.enumerators, held := x.items ++ s.held }) := by
  have ht : s.takeRest? e = some (x, { s with
      enumerators := Named.erase e s.enumerators
      held := x.items ++ s.held }) := by
    rw [Session.takeRest?, hl]
    rfl
  refine (bind_ok (get_run s) _).trans ?_
  simp only [ht]
  exact map_listed_run x.isUnordered x.items _

theorem openEnumerator_run_none (hc : s.store.contents? (s.handle h) = none) :
    handleStep (.openEnumerator h e) s = (.ok (.flag false), s.dropEnumerator e) := by
  have ho : s.openEnumerator? e (s.handle h) = none := by
    rw [Session.openEnumerator?, hc]
    rfl
  refine (bind_ok (get_run s) _).trans ?_
  simp only [ho]
  rfl

theorem openEnumerator_run_some (hc : s.store.contents? (s.handle h) = some c) :
    handleStep (.openEnumerator h e) s = (.ok (.flag true),
      ({ s with realm := (s.realm.enumerate c).2 } : Session).setEnumerator e
        ⟨(s.realm.enumerate c).1, c.isUnordered⟩) := by
  have ho : s.openEnumerator? e (s.handle h) =
      some (({ s with realm := (s.realm.enumerate c).2 } : Session).setEnumerator e
        ⟨(s.realm.enumerate c).1, c.isUnordered⟩) := by
    rw [Session.openEnumerator?, hc]
    rfl
  refine (bind_ok (get_run s) _).trans ?_
  simp only [ho]
  rfl

end Action

namespace Session

variable {s : Session} {e h : String} {x : Enumerator} {step : Step} {c : Contents}

/-! What one step does to an enumerator. -/

theorem not_scope_enumerators (hspares : step.Spares e) (ht : step.takes e = false) :
    ¬ (step.scope s).enumerators e := by
  intro hscope
  cases step with
  | handle step =>
    have he : step.enumerator? = some e := hscope
    cases step with
    | openEnumerator _ f => exact hspares (Option.some.inj he)
    | snapshot f _ => exact hspares (Option.some.inj he)
    | rest f => exact hspares (Option.some.inj he)
    | next f _ => exact beq_eq_false_iff_ne.mp ht (Option.some.inj he)
    | _ => cases he
  | _ => exact hscope.elim

theorem lookup_advance_next (hl : s.enumerators.lookup e = some x) (target : Option String) :
    (s.advance (.handle (.next e target))).2.enumerators.lookup e =
      some { x with items := x.items.drop 1 } := by
  have hx := enumerator_of_lookup hl
  cases hi : x.items with
  | nil =>
    have hrun := Action.next_run_nil (s := s) (hx ▸ hi) target
    rw [advance_eq_endStep (.handle (.next e target)) hrun, List.drop_nil, ← hi]
    exact hl
  | cons o rest =>
    have hrun := Action.next_run_cons (s := s) (hx ▸ hi) target
    have hkept := Action.enumerators_deliver o target (Action.took s e o rest)
    rw [advance_eq_endStep (.handle (.next e target)) hrun]
    refine (congrArg (List.lookup e) hkept).trans ((Named.lookup_set ..).trans ?_)
    rw [if_pos rfl, hx]
    rfl

/-- A step that spares an enumerator takes at most its first object. -/
theorem Sound.lookup_advance (hs : s.Sound) (hspares : step.Spares e)
    (hl : s.enumerators.lookup e = some x) : (s.advance step).2.enumerators.lookup e =
      some { x with items := x.items.drop (if step.takes e then 1 else 0) } := by
  cases ht : step.takes e with
  | false => rw [advance_enumerators hs step (not_scope_enumerators hspares ht), hl]; rfl
  | true =>
    obtain ⟨target, rfl⟩ := Step.exists_of_takes ht
    exact lookup_advance_next hl target

/-- So each step that takes an object leaves those behind it. -/
theorem Settled.lookup_advanceAll (hs : s.Settled) (later : List Step)
    (hspares : ∀ step ∈ later, step.Spares e) (hl : s.enumerators.lookup e = some x) :
    (s.advanceAll later).2.enumerators.lookup e =
      some { x with items := x.items.drop (later.countP (·.takes e)) } := by
  induction later generalizing s x with
  | nil => exact hl
  | cons step steps ih =>
    obtain ⟨hstep, hsteps⟩ := List.forall_mem_cons.mp hspares
    have hl' := hs.sound.lookup_advance hstep hl
    refine (ih (advance_settled hs step).1 hsteps hl').trans ?_
    rw [List.drop_drop, List.countP_cons, Nat.add_comm]

/-! What an enumerator gives and what it lets go of. -/

theorem outcome_next (hl : s.enumerators.lookup e = some x) (target : Option String) :
    (s.advance (.handle (.next e target))).1.outcome = s.nextAnswer x.items.head? := by
  have hx := enumerator_of_lookup hl
  cases hi : x.items with
  | nil => exact outcome_advance (.handle _) (Action.next_run_nil (hx ▸ hi) target)
  | cons o rest => exact outcome_advance (.handle _) (Action.next_run_cons (hx ▸ hi) target)

theorem Settled.refs_releaseAll (hs : s.Settled) {id : Nat} (hm : .object id ∈ s.roots) :
    (s.store.releaseAll [.object id]).refs id + 1 = s.store.refs id := by
  have hcounted : s.store.Counted (.object id :: s.roots.erase (.object id)) :=
    hs.sound.toCounted.congr fun j => (List.perm_cons_erase hm).symm.count_eq _
  exact hcounted.refs_releaseAll_singleton

theorem Settled.store_advance_next (hs : s.Settled) (hl : s.enumerators.lookup e = some x)
    {o : Handle} {rest : List Handle} (hi : x.items = o :: rest) :
    (s.advance (.handle (.next e none))).2.store = s.store.releaseAll [o] := by
  have hx := enumerator_of_lookup hl
  have hrun := Action.next_run_cons (s := s) (hx ▸ hi) none
  have hkept : (Action.deliver none o (Action.took s e o rest)).2 = Action.took s e o rest := by
    rw [Action.deliver_run]
    cases (Action.took s e o rest).store.view o <;> rfl
  have hheld : (Action.took s e o rest).held = [o] := congrArg (o :: ·) hs.held
  rw [advance_eq_endStep (.handle (.next e none)) hrun, hkept]
  exact endStep_store hheld

theorem Settled.enumerates (hs : s.Settled) (hl : s.enumerators.lookup e = some x) :
    s.Enumerates e x where
  lookup := hl
  safe o ho := hs.sound.safe_of_mem_roots (mem_roots_of_lookup hl ho)
  gives := outcome_next hl
  names o rest v name hi hv := by
    have hx := enumerator_of_lookup hl
    have hrun := Action.next_run_cons (s := s) (hx ▸ hi) (some name)
    have hview : (Action.took s e o rest).store.view o = .ok v := hv
    have hheld : ((Action.took s e o rest).setHandle name o).held = [o] :=
      congrArg (o :: ·) hs.held
    rw [advance_eq_endStep (.handle (.next e (some name))) hrun, Action.deliver_run, hview]
    exact ⟨handle_setHandle (Action.took s e o rest) name o, endStep_store hheld⟩
  releases o rest hi := hs.store_advance_next hl hi
  refs id rest hi := by
    rw [hs.store_advance_next hl hi]
    exact hs.refs_releaseAll (mem_roots_of_lookup hl (hi ▸ List.mem_cons_self ..))
  lists := outcome_advance (.handle _) (Action.rest_run hl)
  drops := by
    have hheld : x.items ++ s.held = x.items := by rw [hs.held, List.append_nil]
    rw [advance_eq_endStep (.handle (.rest e)) (Action.rest_run hl)]
    exact endStep_store hheld
  closes h hc := by
    have hheld : (s.dropEnumerator e).held = [] := hs.held
    rw [advance_eq_endStep (.handle (.openEnumerator h e)) (Action.openEnumerator_run_none hc),
      endStep_store_of_held_eq_nil hheld, ← enumerator_of_lookup hl]
    rfl
  reopens h c hc := by
    let u : Session := { s with realm := (s.realm.enumerate c).2 }
    have hheld : (u.setEnumerator e ⟨(s.realm.enumerate c).1, c.isUnordered⟩).held = [] := hs.held
    rw [advance_eq_endStep (.handle (.openEnumerator h e)) (Action.openEnumerator_run_some hc),
      endStep_store_of_held_eq_nil hheld, ← enumerator_of_lookup hl]
    rfl

/-- An object that an enumerator has still to give is shown as it was. -/
theorem Settled.nextAnswer_advance (hs : s.Settled) (hspares : step.Spares e)
    (hl : s.enumerators.lookup e = some x) (i : Nat) :
    (s.advance step).2.nextAnswer (x.items.drop (if step.takes e then 1 else 0))[i]? =
      s.nextAnswer (x.items.drop (if step.takes e then 1 else 0))[i]? := by
  obtain ⟨hs', hp⟩ := advance_settled hs step
  have hsafe' := (hs'.enumerates (hs.sound.lookup_advance hspares hl)).safe
  cases ho : (x.items.drop (if step.takes e then 1 else 0))[i]? with
  | none => rfl
  | some o =>
    have hm := List.mem_of_getElem? ho
    have hsafe := (hs.enumerates hl).safe o (List.mem_of_mem_drop hm)
    rw [nextAnswer, nextAnswer, hp.view_eq hs.sound hs'.sound hsafe (hsafe' o hm)]

/-- An enumerator gives its objects in their order, as they were at the start, and then nothing. -/
theorem Settled.yields_eq (hs : s.Settled) (later : List Step)
    (hspares : ∀ step ∈ later, step.Spares e) (hl : s.enumerators.lookup e = some x) :
    yields e s later =
      (List.range (later.countP (·.takes e))).map fun i => s.nextAnswer x.items[i]? := by
  induction later generalizing s x with
  | nil => rfl
  | cons step steps ih =>
    obtain ⟨hstep, hsteps⟩ := List.forall_mem_cons.mp hspares
    have hrest := ih (advance_settled hs step).1 hsteps (hs.sound.lookup_advance hstep hl)
    rw [List.map_congr_left fun i _ => hs.nextAnswer_advance hstep hl i] at hrest
    rw [yields, hrest]
    cases ht : step.takes e with
    | false =>
      rw [List.countP_cons_of_neg (by rw [ht]; exact Bool.false_ne_true)]
      rfl
    | true =>
      obtain ⟨target, rfl⟩ := Step.exists_of_takes ht
      rw [List.countP_cons_of_pos ht, List.range_succ_eq_map, List.map_cons, List.map_map,
        outcome_next hl target, List.head?_eq_getElem?]
      refine congrArg (_ :: ·) (List.map_congr_left fun i _ => ?_)
      rw [if_pos rfl, List.getElem?_drop, Nat.add_comm]
      rfl

/-- An enumerator that is opened on a collection gets objects that stand for its elements. -/
theorem Settled.opens (hs : s.Settled) (hc : s.store.contents? (s.handle h) = some c) :
    let r := s.advance (.handle (.openEnumerator h e))
    r.1.outcome = .ok (.flag true) ∧ r.2.Settled ∧ ∃ items,
      r.2.enumerators.lookup e = some ⟨items, c.isUnordered⟩ ∧ c.Represents r.2.store items := by
  intro r
  have hr : r.2.Settled := (advance_settled hs _).1
  let u : Session := { s with realm := (s.realm.enumerate c).2 }
  let x : Enumerator := ⟨(s.realm.enumerate c).1, c.isUnordered⟩
  have hrun : Action.handleStep (.openEnumerator h e) s =
    (.ok (.flag true), u.setEnumerator e x) := Action.openEnumerator_run_some hc
  have hend : r.2 = (u.setEnumerator e x).endStep :=
    advance_eq_endStep (.handle (.openEnumerator h e)) hrun
  have hl : r.2.enumerators.lookup e = some x := by
    rw [hend]
    exact (Named.lookup_set ..).trans (if_pos rfl)
  refine ⟨outcome_advance (.handle _) hrun, hr, x.items, hl, ?_⟩
  have hcontents := hs.sound.safeAll_contents hc
  have hrep : c.Represents u.store x.items := Realm.enumerate_represents hs.sound c hcontents
  have hp : u.store.Precedes r.2.store := by
    rw [hend]
    exact (Store.precedes_releaseAll ..).trans (u.setEnumerator e x).precedes_endStep
  exact hrep.mono hp hr.sound (hr.enumerates hl).safe

/-- After any steps, an enumerator is opened on a collection. Whatever else happens, each further
step that takes an object from it gets the next of those that stood for the elements then, and
nothing past the last. -/
theorem run_enumerates (steps : List Step) (h e : String) :
    let s := (start.advanceAll steps).2
    ∀ c, s.store.contents? (s.handle h) = some c →
      let r := s.advance (.handle (.openEnumerator h e))
      r.1.outcome = .ok (.flag true) ∧ ∃ items,
        items.length = c.count ∧ c.Represents r.2.store items ∧
        ∀ later, (∀ step ∈ later, step.Spares e) →
          let t := (r.2.advanceAll later).2
          let n := later.countP (·.takes e)
          yields e r.2 later = (List.range n).map (fun i => r.2.nextAnswer items[i]?) ∧
            t.Enumerates e ⟨items.drop n, c.isUnordered⟩ ∧
            (c.drop n).Represents t.store (items.drop n) := by
  intro s c hc r
  have hs : s.Settled := run_settled steps
  obtain ⟨hok, hr, items, hl, hrep⟩ := hs.opens (e := e) hc
  refine ⟨hok, items, hrep.length_eq, hrep, fun later hspares => ?_⟩
  have ht := advanceAll_settled hr later
  have henum := ht.enumerates (hr.lookup_advanceAll later hspares hl)
  exact ⟨hr.yields_eq later hspares hl, henum,
    (hrep.drop _).mono (precedes_advanceAll hr later) ht.sound henum.safe⟩

/-- A list of two objects is cleared and dropped, and the enumerator still has the second one. -/
theorem run_enumerates_cleared :
    ∃ steps,
      let s := (start.advanceAll steps).2
      s.store.contents? (s.handle "l") = some (.list .object [.object 0, .object 1]) ∧
        ((s.advance (.handle (.openEnumerator "l" "e"))).2.advanceAll
          [.list (.clear "l"), .handle (.next "e" none), .handle (.drop "l")]).2.Enumerates "e"
            ⟨[.object 1], false⟩ := by
  have hx : (start.advanceAll [.list (.new "l" .object [.plain, .plain])]).2.store.contents?
      ((start.advanceAll [.list (.new "l" .object [.plain, .plain])]).2.handle "l") =
        some (.list .object [.object 0, .object 1]) := by decide +kernel
  refine ⟨_, hx, ?_⟩
  obtain ⟨-, items, -, hrep, hlater⟩ := run_enumerates _ "l" "e" _ hx
  obtain _ | ⟨rfl, _ | ⟨rfl, ⟨⟩⟩⟩ := hrep
  have hspares : ∀ step ∈ [.list (.clear "l"), .handle (.next "e" none), .handle (.drop "l")],
      Step.Spares "e" step := by simp [Step.Spares]
  exact (hlater _ hspares).2.1

end Session

end CountedObjects
