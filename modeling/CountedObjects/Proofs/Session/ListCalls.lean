import CountedObjects.Proofs.Session.DictionaryCalls
import CountedObjects.Proofs.Session.ListSteps
import CountedObjects.Proofs.Shown

/-! Lists answer and change as plain lists do that are searched from their front, whatever name they
are called by. -/
namespace CountedObjects

/-- Equality of the values: a NaN equals nothing, and the two zeros are equal. -/
def Double.Equal (x y : Double) : Prop :=
  x.isNaN = false ∧ y.isNaN = false ∧ (x = y ∨ x.isZero = true ∧ y.isZero = true)

theorem Double.same_iff_equal {x y : Double} : x.same y = true ↔ x.Equal y := by
  obtain ⟨a⟩ := x
  obtain ⟨b⟩ := y
  simp [same, Equal, and_assoc]

namespace ElementType

/-- Handles are equal if they point to one object, keys if their objects are equal, and all others
by value. Optional elements are equal if both are missing, or both are there and equal. -/
def Equal (s : Store) : (t : ElementType) → t.Value → t.Value → Prop
  | scalar .double, x, y => x.Equal y
  | scalar _, v, w => v = w
  | string, v, w => v = w
  | object, v, w => v = w
  | pointer _, v, w => v = w
  | key, v, w => s.equals v w = true
  | option _, none, none => True
  | option t, some v, some w => t.Equal s v w
  | option _, _, _ => False

theorem same_iff_equal (s : Store) : (t : ElementType) → (v w : t.Value) →
    (t.same s v w = true ↔ t.Equal s v w)
  | scalar k, v, w => by
    cases k with
    | double => exact Double.same_iff_equal
    | _ => exact beq_iff_eq
  | string, _, _ => beq_iff_eq
  | object, _, _ => beq_iff_eq
  | pointer _, _, _ => beq_iff_eq
  | key, _, _ => Iff.rfl
  | option _, none, none => by simp [same, Equal]
  | option _, none, some _ => by simp [same, Equal]
  | option _, some _, none => by simp [same, Equal]
  | option t, some v, some w => t.same_iff_equal s v w

/-- The element at a position equals `x`, and none before it does. -/
structure FirstAt (t : ElementType) (s : Store) (xs : List t.Value) (x : t.Value) (i : Nat) :
    Prop where
  equal : ∃ y, xs[i]? = some y ∧ t.Equal s y x
  least : ∀ j y, xs[j]? = some y → t.Equal s y x → i ≤ j

variable {t : ElementType} {s : Store} {xs : List t.Value} {x : t.Value} {i : Nat}

theorem findIdx?_eq_some_iff :
    xs.findIdx? (fun y => t.same s y x) = some i ↔ t.FirstAt s xs x i := by
  simp only [List.findIdx?_eq_some_iff_getElem, t.same_iff_equal s]
  constructor
  · rintro ⟨hi, heq, hbefore⟩
    refine ⟨⟨xs[i], List.getElem?_eq_getElem hi, heq⟩, fun j y hy hyx => ?_⟩
    obtain ⟨hj, rfl⟩ := List.getElem?_eq_some_iff.mp hy
    by_contra hlt
    exact hbefore j (Nat.lt_of_not_le hlt) hyx
  · rintro ⟨⟨y, hy, hyx⟩, hleast⟩
    obtain ⟨hi, rfl⟩ := List.getElem?_eq_some_iff.mp hy
    refine ⟨hi, hyx, fun j hj hjx => ?_⟩
    have hle := hleast j xs[j] (List.getElem?_eq_getElem (by omega)) hjx
    omega

theorem findIdx?_eq_none_iff :
    xs.findIdx? (fun y => t.same s y x) = none ↔ ∀ y ∈ xs, ¬ t.Equal s y x := by
  simp only [List.findIdx?_eq_none_iff, ← t.same_iff_equal s, Bool.not_eq_true]

theorem contains_iff :
    Sequence.contains (t.same s) x xs = true ↔ ∃ y ∈ xs, t.Equal s y x := by
  simp only [Sequence.contains, List.any_eq_true, t.same_iff_equal s]

theorem eraseP_of_firstAt (h : t.FirstAt s xs x i) :
    xs.eraseP (fun y => t.same s y x) = xs.eraseIdx i := by
  rw [List.eraseP_eq_eraseIdx, findIdx?_eq_some_iff.mpr h]

theorem eraseP_of_not_equal (h : ∀ y ∈ xs, ¬ t.Equal s y x) :
    xs.eraseP (fun y => t.same s y x) = xs := by
  rw [List.eraseP_eq_eraseIdx, findIdx?_eq_none_iff.mpr h]

theorem FirstAt.exists_mem (h : t.FirstAt s xs x i) : ∃ y ∈ xs, t.Equal s y x := by
  obtain ⟨y, hy, hyx⟩ := h.equal
  exact ⟨y, List.mem_of_getElem? hy, hyx⟩

end ElementType

/-- What is asked of a list, with the arguments that were built for it. -/
inductive ListCall (α : Type)
  | add (x : α)
  | addRange (ys : List α)
  | get (i : Nat) (target : Option String)
  | removeAt (i : Nat) (target : Option String)
  | set (i : Nat) (x : α)
  | insert (i : Nat) (x : α)
  | remove (x : α)
  | contains (x : α)
  | indexOf (x : α)
  | clear
  | count
  | toVec
  | sort (order : SortBy)

/-- The name of the list that a step calls, and the call. -/
def ListStep.call? (t : ElementType) : ListStep → Option (String × Action (ListCall t.Value))
  | add h l => some (h, do return .add (← l.element t))
  | addObject h l => some (h, do return .add (← l.converted t))
  | addRange h source => some (h, do return .addRange (← Action.elementsOf t source))
  | get h i target => some (h, return .get i target)
  | removeAt h i target => some (h, return .removeAt i target)
  | set h i l => some (h, do return .set i (← l.element t))
  | insert h i l => some (h, do return .insert i (← l.element t))
  | remove h l => some (h, do return .remove (← l.element t))
  | contains h l => some (h, do return .contains (← l.element t))
  | indexOf h l => some (h, do return .indexOf (← l.element t))
  | clear h => some (h, return .clear)
  | count h => some (h, return .count)
  | toVec h => some (h, return .toVec)
  | sort h order => some (h, return .sort order)
  | new .. => none

/-- The call by a step of the list with a number, under whatever name. -/
def Step.listCall? (s : Session) (id : Nat) (t : ElementType) :
    Step → Option (Action (ListCall t.Value))
  | .list step => (step.call? t).bind fun p => if s.handle p.1 = .object id then some p.2 else none
  | _ => none

/-- What is shown of some elements is what is shown of objects that stand for them. -/
def Session.ShowsAll (s : Session) (t : ElementType) (xs : List t.Value) (r : Result (List View)) :
    Prop :=
  ∃ (os : List Handle) (u : Session), s.store.Precedes u.store ∧ u.Sound ∧ u.store.SafeAll os ∧
    List.Forall₂ (t.Represents u.store) xs os ∧ r = u.store.views os

namespace ListCall

variable {t : ElementType}

/-- Positions out of range leave the elements as they are. -/
def apply (s : Store) (xs : List t.Value) : ListCall t.Value → List t.Value
  | add x => xs ++ [x]
  | addRange ys => xs ++ ys
  | removeAt i _ => xs.eraseIdx i
  | set i x => xs.set i x
  | insert i x => xs.insertIdx i x
  | remove x => xs.eraseP fun y => t.same s y x
  | clear => []
  | sort order => (order.sort s t xs).1
  | get .. | contains _ | indexOf _ | count | toVec => xs

/-- Whether a call gives out an element, which may be stored in place of the list. -/
def gives : ListCall t.Value → Bool
  | get .. | removeAt .. => true
  | _ => false

/-- What a call may answer, from the state in which its arguments are built, and what it may name
in the state after the step. -/
def Answers (s : Session) (xs : List t.Value) (r : Result Answer) (w : Session) :
    ListCall t.Value → Prop
  | get i target | removeAt i target =>
    if h : i < xs.length then s.GivesOut t xs[i] target r w
    else r = .error (.collection (.indexOutOfRange i xs.length))
  | set i _ =>
    r = if i < xs.length then .ok .nothing
      else .error (.collection (.indexOutOfRange i xs.length))
  | insert i _ =>
    r = if i ≤ xs.length then .ok .nothing
      else .error (.collection (.indexOutOfRange i xs.length))
  | indexOf x =>
    (∃ i : Nat, t.FirstAt s.store xs x i ∧ r = .ok (.number i)) ∨
      (∀ y ∈ xs, ¬ t.Equal s.store y x) ∧ r = .ok .nothing
  | contains x | remove x =>
    ∃ b, r = .ok (.flag b) ∧ (b = true ↔ ∃ y ∈ xs, t.Equal s.store y x)
  | add _ | clear => r = .ok .nothing
  | addRange ys => r = .ok (.number (xs ++ ys).length)
  | count => r = .ok (.size xs.length)
  | toVec => ∃ vs, s.ShowsAll t xs vs ∧ r = vs.map .objects
  | sort order =>
    match order.sort s.store t xs with
    | (ys, .ok ()) => ∃ vs, s.ShowsAll t ys vs ∧ r = vs.map .objects
    | (_, .error e) => r = .error e

end ListCall

/-- The elements of a plain list after a step. A call whose arguments cannot be built leaves them as
they are. -/
def Step.track (s : Session) (id : Nat) (t : ElementType) (xs : List t.Value) (step : Step) :
    List t.Value :=
  match step.listCall? s id t with
  | none => xs
  | some a =>
    match a s with
    | (.ok c, u) => c.apply u.store xs
    | (.error _, _) => xs

namespace Session

/-- The elements of a plain list after some steps. -/
def track (id : Nat) (t : ElementType) : Session → List t.Value → List Step → List t.Value
  | _, xs, [] => xs
  | s, xs, step :: steps => track id t (s.advance step).2 (step.track s id t xs) steps

/-- The object with a number is a list with the elements. -/
def HasItems (s : Session) (id : Nat) (t : ElementType) (xs : List t.Value) : Prop :=
  s.store.contents? (.object id) = some (.list t xs)

/-- A list with the elements, under any of its names. It answers all calls as a plain list does and
goes on as that list, steps that are no calls of it leave it alone, and the calls that search it,
remove from it and insert into it agree with each other. -/
structure Coheres (s : Session) (id : Nat) (t : ElementType) (xs : List t.Value) : Prop where
  answers : ∀ (step : Step) a c u, step.listCall? s id t = some a → a s = (.ok c, u) →
    c.Answers u xs (s.advance step).1.outcome (s.advance step).2
  items : ∀ (step : Step) a c u, step.listCall? s id t = some a → a s = (.ok c, u) →
    (c.gives = true → (s.advance step).2.store.IsLive id) →
      (s.advance step).2.HasItems id t (c.apply u.store xs)
  error : ∀ (step : Step) a e u, step.listCall? s id t = some a → a s = (.error e, u) →
    (s.advance step).1.outcome = .error e ∧ (s.advance step).2.HasItems id t xs
  others : ∀ step : Step, step.listCall? s id t = none → (s.advance step).2.store.IsLive id →
    (s.advance step).2.HasItems id t xs
  tracks : ∀ later, (s.advanceAll later).2.store.IsLive id →
    (s.advanceAll later).2.HasItems id t (track id t s xs later)
  observes : ∀ h h', s.handle h = .object id → s.handle h' = .object id →
    s.advance (.list (.toVec h)) = s.advance (.list (.toVec h'))
  contains : ∀ h h' l x u, s.handle h = .object id → s.handle h' = .object id →
    l.element t s = (.ok x, u) →
      ∃ b, (s.advance (.list (.contains h l))).1.outcome = .ok (.flag b) ∧
        (b = true ↔ ∃ i : Nat, (s.advance (.list (.indexOf h' l))).1.outcome = .ok (.number i))
  remove : ∀ h h' l x u, s.handle h = .object id → s.handle h' = .object id →
    l.element t s = (.ok x, u) → (s.advance (.list (.remove h l))).1.outcome =
      (s.advance (.list (.contains h' l))).1.outcome
  removes : ∀ h h' l x u, s.handle h = .object id → s.handle h' = .object id →
    l.element t s = (.ok x, u) →
      (∀ i : Nat, (s.advance (.list (.indexOf h' l))).1.outcome = .ok (.number i) →
        (s.advance (.list (.remove h l))).2.HasItems id t (xs.take i ++ xs.drop (i + 1))) ∧
      ((s.advance (.list (.indexOf h' l))).1.outcome = .ok .nothing →
        (s.advance (.list (.remove h l))).2.HasItems id t xs)
  restores : ∀ h l i x u, s.handle h = .object id → l.element t s = (.ok x, u) →
    let w := (s.advance (.list (.insert h i l))).2
    (s.advance (.list (.insert h i l))).1.outcome = .ok .nothing →
      ∀ h' target, w.handle h' = .object id →
        w.GivesOut t x target (w.advance (.list (.removeAt h' i target))).1.outcome
          (w.advance (.list (.removeAt h' i target))).2 ∧
        ((w.advance (.list (.removeAt h' i target))).2.store.IsLive id →
          (w.advance (.list (.removeAt h' i target))).2.HasItems id t xs)

end Session

namespace Session

variable {s u w : Session} {h h' : String} {id : Nat} {t : ElementType} {xs ys : List t.Value}
  {step : ListStep} {a : Action (ListCall t.Value)} {c : ListCall t.Value} {r : Result Answer}

/-- How a step on a list ends: it fails as its arguments do, or it comes to a state in which the
list is as the call leaves it, and does no more than to give something out. -/
inductive Served (s : Session) (id : Nat) (t : ElementType) (xs : List t.Value) (step : ListStep)
    (a : Action (ListCall t.Value)) : Prop
  | failed (e : Fault) (u : Session) (run : a s = (.error e, u)) (sound : u.Sound)
    (builds : s.Builds u) (ends : Action.listStep step s = (.error e, u))
  | ended (c : ListCall t.Value) (u w : Session) (run : a s = (.ok c, u))
    (holds : w.HasItems id t (c.apply u.store xs))
    (leads : Leads .nothing w (Action.listStep step s).2)
    (keeps : c.gives = false → (Action.listStep step s).2.handles = s.handles)
    (answers : c.Answers u xs (Action.listStep step s).1 (s.advance (.list step)).2)

theorem Served.of_kept (ho : s.Opened h (some id) (.list t xs)) (hrun : a s = (.ok c, u))
    (hb : s.Builds w) (hsame : c.apply u.store xs = xs)
    (hr : c.Answers u xs r (s.advance (.list step)).2)
    (hends : Action.listStep step s = (r, w)) : s.Served id t xs step a := by
  refine .ended c u w hrun ?_ ?_ (fun _ => ?_) ?_
  · rw [hsame]
    exact hb.store.contents? ho.2
  · rw [hends]
    exact .refl w
  · rw [hends]
    exact hb.handles
  · rw [hends]
    exact hr

theorem Opened.hasItems_replace (ho : s.Opened h (some id) (.list t xs)) (hs : s.Sound)
    (hys : ∀ y ∈ ys, s.store.SafeAll (t.owned y)) :
    (s.mapRealm (·.replace id (.list t ys))).HasItems id t ys :=
  ho.contents?_replace hs rfl (Store.safeAll_list.mpr hys)

theorem Served.of_changed (ho : s.Opened h (some id) (.list t xs)) (hrun : a s = (.ok c, u))
    (hu : u.Sound) (hb : s.Builds u)
    (hys : ∀ y ∈ c.apply u.store xs, u.store.SafeAll (t.owned y))
    (hr : c.Answers u xs r (s.advance (.list step)).2)
    (hends : Action.listStep step s =
      (r, u.mapRealm (·.replace id (.list t (c.apply u.store xs))))) :
    s.Served id t xs step a := by
  refine .ended c u _ hrun ((ho.mono hb).hasItems_replace hu hys) ?_ (fun _ => ?_) ?_
  · rw [hends]
    exact .refl _
  · rw [hends]
    exact hb.handles
  · rw [hends]
    exact hr

/-- Elements are shown and nothing else is done. -/
theorem Sound.showElements (hs : s.Sound) (hxs : ∀ x ∈ xs, s.store.SafeAll (t.owned x)) :
    ∃ r u, Action.showElements t xs s = (r, u) ∧ s.Builds u ∧ s.ShowsAll t xs r := by
  obtain ⟨os, u, hos, hu, hb, hall⟩ := Action.mapM_toObject_run hs t xs hxs
  have hrun : Action.showElements t xs s = (u.store.views os, u) := by
    unfold Action.showElements
    rw [Action.bind_ok hos]
    exact Action.query_run _ u
  obtain ⟨hheld, hrep⟩ := (List.forall₂_and_left os xs).mp hall.flip
  exact ⟨_, u, hrun, hb, os, u, hb.store.toPrecedes, hu, hu.safeAll_of_holds hheld, hrep.flip, rfl⟩

/-- What a step answers that ends with showing elements. -/
theorem Sound.map_showElements (hs : s.Sound) (hxs : ∀ x ∈ xs, s.store.SafeAll (t.owned x)) :
    ∃ r u, (do return .objects (← Action.showElements t xs) : Action Answer) s =
      (r.map .objects, u) ∧ s.Builds u ∧ s.ShowsAll t xs r := by
  obtain ⟨r, u, hrun, hb, hr⟩ := hs.showElements hxs
  refine ⟨r, u, ?_, hb, hr⟩
  cases r with
  | error e => exact Action.bind_error hrun _
  | ok vs => exact Action.bind_ok hrun _

theorem ShowsAll.of_precedes {r : Result (List View)} (h : u.ShowsAll t xs r)
    (hp : s.store.Precedes u.store) : s.ShowsAll t xs r := by
  obtain ⟨os, w, hw, hall⟩ := h
  exact ⟨os, w, hp.trans hw, hall⟩

/-- A step fails as its argument does, or goes on with what was built for it. -/
theorem Served.of_argument {ρ : Type} {b : Action ρ} {P : ρ → Session → Prop}
    {f : ρ → ListCall t.Value} (hb : Action.Ensures Builds b s P)
    (herror : ∀ e u, b s = (.error e, u) → Action.listStep step s = (.error e, u))
    (hok : ∀ x u, b s = (.ok x, u) → u.Sound → s.Builds u → P x u →
      (do return f (← b) : Action (ListCall t.Value)) s = (.ok (f x), u) →
        s.Served id t xs step (do return f (← b))) :
    s.Served id t xs step (do return f (← b)) := by
  rcases hb.error_or_ok with ⟨e, u, hx, hu, hst⟩ | ⟨x, u, hx, hu, hst, hp⟩
  · exact .failed e u (Action.bind_error hx _) hu hst (herror e u hx)
  · exact hok x u hx hu hst hp (Action.bind_ok hx _)

theorem Sound.served_get (hs : s.Sound) (ho : s.Opened h (some id) (.list t xs)) (i : Nat)
    (target : Option String) : s.Served id t xs (.get h i target) (return .get i target) := by
  by_cases hi : i < xs.length
  · have hmade := Action.toObject_ensures hs t xs[i] (ho.safeAll_list hs _ (List.getElem_mem hi))
    have hheld := hmade.result _ rfl
    have hrun := Action.listStep_get_run ho hi target rfl
    have hgiven := hmade.follows.givesOut (.refl _) hmade.sound hheld
      (t.represents_toObject s.realm xs[i]) target
    refine .ended (.get i target) s _ rfl (hmade.follows.store.contents? ho.2) ?_ nofun ?_
    · rw [hrun]
      exact (Action.deliver_ensures hmade.sound (hmade.sound.safe_of_holds hheld) target).follows
    · rw [ListCall.Answers, dif_pos hi, advance_eq_endStep (.list (.get h i target)) hrun, hrun]
      exact hgiven
  · have hrun := Action.listStep_get_run_error ho (Nat.le_of_not_lt hi) target
    refine .of_kept (c := .get i target) ho rfl (.refl s) rfl ?_ hrun
    rw [ListCall.Answers, dif_neg hi]

theorem Sound.served_removeAt (hs : s.Sound) (ho : s.Opened h (some id) (.list t xs)) (i : Nat)
    (target : Option String) :
    s.Served id t xs (.removeAt h i target) (return .removeAt i target) := by
  by_cases hi : i < xs.length
  · have hmade := Action.toObject_ensures hs t xs[i] (ho.safeAll_list hs _ (List.getElem_mem hi))
    have hheld := hmade.result _ rfl
    have hrun := Action.listStep_removeAt_run ho hi target rfl
    have hopened := ho.mono hmade.follows
    have hys : ∀ y ∈ xs.eraseIdx i, (Action.toObject t xs[i] s).2.store.SafeAll (t.owned y) :=
      fun y hy => hopened.safeAll_list hmade.sound y (List.mem_of_mem_eraseIdx hy)
    have hreplaced : ((Action.toObject t xs[i] s).2.mapRealm
        (·.replace id (.list t (xs.eraseIdx i)))).Sound :=
      Store.Sound.replace hmade.sound (Store.safeAll_list.mpr hys) id
    have hgiven := hmade.follows.givesOut (precedes_replace _ id _) hreplaced hheld
      (t.represents_toObject s.realm xs[i]) target
    have hitems := hopened.hasItems_replace hmade.sound hys
    refine .ended (.removeAt i target) s _ rfl hitems ?_ nofun ?_
    · rw [hrun]
      exact (Action.deliver_ensures hreplaced (hreplaced.safe_of_holds hheld) target).follows
    · rw [ListCall.Answers, dif_pos hi,
        advance_eq_endStep (.list (.removeAt h i target)) hrun, hrun]
      exact hgiven
  · have hrun := Action.listStep_removeAt_run_error ho (Nat.le_of_not_lt hi) target
    refine .of_kept (c := .removeAt i target) ho rfl (.refl s)
      (List.eraseIdx_of_length_le (Nat.le_of_not_lt hi)) ?_ hrun
    rw [ListCall.Answers, dif_neg hi]

theorem Sound.served_remove (hs : s.Sound) (ho : s.Opened h (some id) (.list t xs)) (l : Literal) :
    s.Served id t xs (.remove h l) (do return .remove (← l.element t)) := by
  have hopen := Action.openList_run ho
  refine .of_argument (Action.element_ensures hs t l)
    (fun _ _ he => Action.argument_run_error hopen he _) fun x u hx hu hb hsafe hrun => ?_
  cases hf : xs.findIdx? (fun y => t.same u.store y x) with
  | none =>
    have hnone := ElementType.findIdx?_eq_none_iff.mp hf
    have hanswer : false = true ↔ ∃ y ∈ xs, t.Equal u.store y x := by simpa using hnone
    exact .of_kept ho hrun hb (ElementType.eraseP_of_not_equal hnone) ⟨false, rfl, hanswer⟩
      (Action.listStep_remove_run_of_none ho hx hf)
  | some i =>
    have hfirst := ElementType.findIdx?_eq_some_iff.mp hf
    have happly : (ListCall.remove x).apply u.store xs = xs.eraseIdx i :=
      ElementType.eraseP_of_firstAt hfirst
    have hys : ∀ y ∈ (ListCall.remove x).apply u.store xs, u.store.SafeAll (t.owned y) :=
      fun y hy => (ho.mono hb).safeAll_list hu y (List.mem_of_mem_eraseP hy)
    have hanswer : true = true ↔ ∃ y ∈ xs, t.Equal u.store y x :=
      iff_of_true rfl hfirst.exists_mem
    refine .of_changed ho hrun hu hb hys ⟨true, rfl, hanswer⟩ ?_
    rw [happly]
    exact Action.listStep_remove_run ho hx hf

theorem Sound.served_sort (hs : s.Sound) (ho : s.Opened h (some id) (.list t xs))
    (order : SortBy) : s.Served id t xs (.sort h order) (return .sort order) := by
  have hperm := order.sort_perm s.store t xs
  have hys : ∀ y ∈ (order.sort s.store t xs).1, s.store.SafeAll (t.owned y) :=
    fun y hy => ho.safeAll_list hs y (hperm.subset hy)
  have hitems := ho.hasItems_replace hs hys
  rcases hr : order.sort s.store t xs with ⟨ys, e | _⟩
  · rw [hr] at hitems
    refine .ended (.sort order) s (s.mapRealm (·.replace id (.list t ys))) rfl ?_ ?_
      (fun _ => ?_) ?_
    · rw [ListCall.apply, hr]
      exact hitems
    all_goals rw [Action.listStep_sort_run_error ho hr]
    · exact .refl _
    · rfl
    · rw [ListCall.Answers, hr]
  · rw [hr] at hys hitems
    -- The elements are shown as the list holds them, which the sorting does not release.
    have hreplaced : (s.mapRealm (·.replace id (.list t ys))).Sound :=
      Store.Sound.replace hs (Store.safeAll_list.mpr hys) id
    have hlater := Store.safeAll_list.mp (hreplaced.safeAll_contents hitems)
    obtain ⟨r, u, hrun, hb, hshown⟩ := hreplaced.map_showElements hlater
    refine .ended (.sort order) s (s.mapRealm (·.replace id (.list t ys))) rfl ?_ ?_
      (fun _ => ?_) ?_
    · rw [ListCall.apply, hr]
      exact hitems
    all_goals rw [(Action.listStep_sort_run ho hr).trans hrun]
    · exact hb.leads
    · exact hb.handles
    · rw [ListCall.Answers, hr]
      exact ⟨r, hshown.of_precedes (s.precedes_replace ..), rfl⟩

theorem Sound.served (hs : s.Sound) (ho : s.Opened h (some id) (.list t xs))
    (hc : step.call? t = some (h, a)) : s.Served id t xs step a := by
  have hopen := Action.openList_run ho
  have safe : ∀ {u : Session}, u.Sound → s.Builds u → ∀ y ∈ xs, u.store.SafeAll (t.owned y) :=
    fun hu hb => (ho.mono hb).safeAll_list hu
  cases step with
  | add _ l =>
    cases hc
    refine .of_argument (Action.element_ensures hs t l)
      (fun _ _ he => Action.argument_run_error hopen he _) fun x u hx hu hb hsafe hrun => ?_
    have hxs : ∀ y ∈ xs ++ [x], u.store.SafeAll (t.owned y) :=
      List.forall_mem_append.mpr ⟨safe hu hb, List.forall_mem_singleton.mpr hsafe⟩
    exact .of_changed ho hrun hu hb hxs rfl (Action.listStep_add_run ho hx)
  | addObject _ l =>
    cases hc
    have heq := Action.listStep_addObject_eq ho l
    refine .of_argument (Action.converted_ensures hs t l)
      (fun _ _ he => heq.trans (Action.bind_error he _)) fun x u hx hu hb hsafe hrun => ?_
    have hxs : ∀ y ∈ xs ++ [x], u.store.SafeAll (t.owned y) :=
      List.forall_mem_append.mpr ⟨safe hu hb, List.forall_mem_singleton.mpr hsafe⟩
    exact .of_changed ho hrun hu hb hxs rfl (heq.trans (Action.bind_ok hx _))
  | addRange _ source =>
    cases hc
    refine .of_argument (Action.elementsOf_ensures hs t source)
      (fun _ _ he => Action.argument_run_error hopen he _) fun ys u hx hu hb hsafe hrun => ?_
    have hxs : ∀ y ∈ xs ++ ys, u.store.SafeAll (t.owned y) :=
      List.forall_mem_append.mpr ⟨safe hu hb, hsafe⟩
    exact .of_changed ho hrun hu hb hxs rfl (Action.listStep_addRange_run ho hx)
  | get _ i target =>
    cases hc
    exact hs.served_get ho i target
  | removeAt _ i target =>
    cases hc
    exact hs.served_removeAt ho i target
  | set _ i l =>
    cases hc
    refine .of_argument (Action.element_ensures hs t l)
      (fun _ _ he => Action.argument_run_error hopen he _) fun x u hx hu hb hsafe hrun => ?_
    by_cases hi : i < xs.length
    · have hxs : ∀ y ∈ xs.set i x, u.store.SafeAll (t.owned y) := by
        intro y hy
        rcases List.mem_or_eq_of_mem_set hy with hm | rfl
        · exact safe hu hb y hm
        · exact hsafe
      exact .of_changed ho hrun hu hb hxs (if_pos hi).symm (Action.listStep_set_run ho hi hx)
    · have hle := Nat.le_of_not_lt hi
      exact .of_kept ho hrun hb (List.set_eq_of_length_le hle) (if_neg hi).symm
        (Action.listStep_set_run_error ho hle hx)
  | insert _ i l =>
    cases hc
    refine .of_argument (Action.element_ensures hs t l)
      (fun _ _ he => Action.argument_run_error hopen he _) fun x u hx hu hb hsafe hrun => ?_
    by_cases hi : i ≤ xs.length
    · have hxs : ∀ y ∈ xs.insertIdx i x, u.store.SafeAll (t.owned y) := by
        intro y hy
        rcases (List.mem_insertIdx hi).mp hy with rfl | hm
        · exact hsafe
        · exact safe hu hb y hm
      exact .of_changed ho hrun hu hb hxs (if_pos hi).symm (Action.listStep_insert_run ho hi hx)
    · have hlt := Nat.lt_of_not_le hi
      exact .of_kept ho hrun hb (List.insertIdx_of_length_lt hlt) (if_neg hi).symm
        (Action.listStep_insert_run_error ho hlt hx)
  | remove _ l =>
    cases hc
    exact hs.served_remove ho l
  | contains _ l =>
    cases hc
    refine .of_argument (Action.element_ensures hs t l)
      (fun _ _ he => Action.argument_run_error hopen he _) fun x u hx hu hb hsafe hrun => ?_
    exact .of_kept ho hrun hb rfl ⟨_, rfl, ElementType.contains_iff⟩
      (Action.listStep_contains_run ho hx)
  | indexOf _ l =>
    cases hc
    refine .of_argument (Action.element_ensures hs t l)
      (fun _ _ he => Action.argument_run_error hopen he _) fun x u hx hu hb hsafe hrun => ?_
    refine .of_kept ho hrun hb rfl ?_ (Action.listStep_indexOf_run ho hx)
    cases hf : Sequence.indexOf? (t.same u.store) x xs with
    | none => exact .inr ⟨ElementType.findIdx?_eq_none_iff.mp hf, rfl⟩
    | some i => exact .inl ⟨i, ElementType.findIdx?_eq_some_iff.mp hf, rfl⟩
  | clear _ =>
    cases hc
    exact .of_changed (c := .clear) ho rfl hs (.refl s) (List.forall_mem_nil _) rfl
      (Action.listStep_clear_run ho)
  | count _ =>
    cases hc
    exact .of_kept (c := .count) ho rfl (.refl s) rfl rfl (Action.listStep_count_run ho)
  | toVec _ =>
    cases hc
    obtain ⟨r, u, hrun, hb, hr⟩ := hs.map_showElements (safe hs (.refl s))
    exact .of_kept (c := .toVec) ho rfl hb rfl ⟨r, hr, rfl⟩
      ((Action.listStep_toVec_eq ho).trans hrun)
  | sort _ order =>
    cases hc
    exact hs.served_sort ho order
  | new => cases hc

theorem listCall?_eq_some {step : Step} (hc : step.listCall? s id t = some a) :
    ∃ h step', step = .list step' ∧ step'.call? t = some (h, a) ∧ s.handle h = .object id := by
  cases step with
  | list step' =>
    obtain ⟨h, hcall, hid⟩ := call_eq_some_iff.mp hc
    exact ⟨h, step', rfl, hcall, hid⟩
  | _ => cases hc

theorem listCall?_of_call? (hc : step.call? t = some (h, a)) (hid : s.handle h = .object id) :
    (Step.list step).listCall? s id t = some a :=
  call_eq_some_iff.mpr ⟨h, hc, hid⟩

/-- A step that does not call a list does not change it. -/
theorem not_scope_of_listCall?_eq_none {step : Step} (hlt : id < s.store.cells.size)
    (hc : step.listCall? s id t = none) :
    ¬ (step.scope s).objects id (.collection (.list t xs)) := by
  intro hw
  cases step with
  | list step =>
    obtain ⟨hge | hname, -⟩ := hw
    · exact absurd hlt (Nat.not_lt.mpr hge)
    obtain ⟨h, hname, hid⟩ := Option.map_eq_some_iff.mp hname
    cases step with
    | new | get | contains | indexOf | count | toVec => cases hname
    | _ =>
      cases hname
      exact absurd hc (by simp [Step.listCall?, ListStep.call?, hid])
  | set step =>
    obtain ⟨-, t', ss, hb⟩ := hw
    cases hb
  | dictionary step =>
    obtain ⟨-, k, v, ss, hb⟩ := hw
    cases hb
  | queue step =>
    obtain ⟨-, t', xs', hb⟩ := hw
    cases hb
  | handle | type | enumeration | activator => exact hw.elim

/-- A list lives on under its name after a step that keeps all names. -/
theorem Settled.isLive_advance (hs : s.Settled) (hid : s.handle h = .object id)
    (hh : (Action.listStep step s).2.handles = s.handles) :
    (s.advance (.list step)).2.store.IsLive id := by
  have hname : (s.advance (.list step)).2.handle h = .object id := by
    rw [← hid, Session.handle, Session.handle, ← hh]
    rfl
  exact (hname ▸ (advance_settled hs (.list step)).1.sound.safe_handle h).isLive

namespace HasItems

variable {step : Step}

theorem isLive (hx : s.HasItems id t xs) : s.store.IsLive id := by
  obtain ⟨c, hc, -⟩ := Store.contents?_object.mp hx
  exact ⟨c, hc⟩

theorem answers (hx : s.HasItems id t xs) (hs : s.Settled)
    (hc : step.listCall? s id t = some a) (hrun : a s = (.ok c, u)) :
    c.Answers u xs (s.advance step).1.outcome (s.advance step).2 := by
  obtain ⟨h, step, rfl, hcall, hid⟩ := listCall?_eq_some hc
  cases hs.sound.served ⟨hid, hx⟩ hcall with
  | failed e u' run => cases run.symm.trans hrun
  | ended c' u' w run holds leads keeps answers =>
    cases run.symm.trans hrun
    exact answers

theorem apply (hx : s.HasItems id t xs) (hs : s.Settled)
    (hc : step.listCall? s id t = some a) (hrun : a s = (.ok c, u))
    (hl : c.gives = true → (s.advance step).2.store.IsLive id) :
    (s.advance step).2.HasItems id t (c.apply u.store xs) := by
  obtain ⟨h, step, rfl, hcall, hid⟩ := listCall?_eq_some hc
  cases hs.sound.served ⟨hid, hx⟩ hcall with
  | failed e u' run => cases run.symm.trans hrun
  | ended c' u' w run holds leads keeps answers =>
    cases run.symm.trans hrun
    refine contents?_of_leads (.list step) holds leads ?_
    cases hg : c.gives with
    | true => exact hl hg
    | false => exact hs.isLive_advance hid (keeps hg)

theorem error {e : Fault} (hx : s.HasItems id t xs) (hs : s.Settled)
    (hc : step.listCall? s id t = some a) (hrun : a s = (.error e, u)) :
    (s.advance step).1.outcome = .error e ∧ (s.advance step).2.HasItems id t xs := by
  obtain ⟨h, step, rfl, hcall, hid⟩ := listCall?_eq_some hc
  have ho : s.Opened h (some id) (.list t xs) := ⟨hid, hx⟩
  cases hs.sound.served ho hcall with
  | failed e' u' run sound builds ends =>
    cases run.symm.trans hrun
    exact ⟨outcome_advance (.list step) ends,
      (ho.mono builds).contents?_of_run sound (.list step) ends⟩
  | ended c u' w run => cases run.symm.trans hrun

theorem other (hx : s.HasItems id t xs) (hs : s.Settled) (hc : step.listCall? s id t = none)
    (hl : (s.advance step).2.store.IsLive id) : (s.advance step).2.HasItems id t xs := by
  refine hs.contents?_of_not_scope hx hl fun x hkind => ?_
  cases x with
  | list t' ys =>
    cases hkind
    exact not_scope_of_listCall?_eq_none hx.isLive.lt_size hc
  | _ => cases hkind

theorem track (hx : s.HasItems id t xs) (hs : s.Settled) (step : Step)
    (hl : (s.advance step).2.store.IsLive id) :
    (s.advance step).2.HasItems id t (step.track s id t xs) := by
  unfold Step.track
  split
  · next hc => exact hx.other hs hc hl
  · next a hc =>
    split
    · next c u hrun => exact hx.apply hs hc hrun fun _ => hl
    · next e u hrun => exact (hx.error hs hc hrun).2

theorem track_advanceAll (hx : s.HasItems id t xs) (hs : s.Settled) (later : List Step)
    (hl : (s.advanceAll later).2.store.IsLive id) :
    (s.advanceAll later).2.HasItems id t (Session.track id t s xs later) := by
  induction later generalizing s xs with
  | nil => exact hx
  | cons step later ih =>
    have hlive := isLive_advance_of_advanceAll hs hx.isLive hl
    exact ih (hx.track hs step hlive) (advance_settled hs step).1 hl

end HasItems

/-! The calls that search a list, remove from it and insert into it. -/

variable {l : Literal} {x : t.Value} {i : Nat}

theorem HasItems.indexOf (hx : s.HasItems id t xs) (hs : s.Settled) (hid : s.handle h = .object id)
    (hl : l.element t s = (.ok x, u)) :
    (∃ i : Nat, t.FirstAt u.store xs x i ∧
      (s.advance (.list (.indexOf h l))).1.outcome = .ok (.number i)) ∨
    (∀ y ∈ xs, ¬ t.Equal u.store y x) ∧
      (s.advance (.list (.indexOf h l))).1.outcome = .ok .nothing := by
  have hc : (Step.list (.indexOf h l)).listCall? s id t = some (do
      return .indexOf (← l.element t)) := listCall?_of_call? rfl hid
  exact hx.answers hs hc (c := .indexOf x) (Action.bind_ok hl _)

theorem HasItems.contains (hx : s.HasItems id t xs) (hs : s.Settled)
    (hid : s.handle h = .object id) (hl : l.element t s = (.ok x, u)) :
    ∃ b, (s.advance (.list (.contains h l))).1.outcome = .ok (.flag b) ∧
      (b = true ↔ ∃ y ∈ xs, t.Equal u.store y x) := by
  have hc : (Step.list (.contains h l)).listCall? s id t = some (do
      return .contains (← l.element t)) := listCall?_of_call? rfl hid
  exact hx.answers hs hc (c := .contains x) (Action.bind_ok hl _)

theorem HasItems.remove (hx : s.HasItems id t xs) (hs : s.Settled)
    (hid : s.handle h = .object id) (hl : l.element t s = (.ok x, u)) :
    (∃ b, (s.advance (.list (.remove h l))).1.outcome = .ok (.flag b) ∧
      (b = true ↔ ∃ y ∈ xs, t.Equal u.store y x)) ∧
    (s.advance (.list (.remove h l))).2.HasItems id t (xs.eraseP fun y => t.same u.store y x) := by
  have hc : (Step.list (.remove h l)).listCall? s id t = some (do
      return .remove (← l.element t)) := listCall?_of_call? rfl hid
  have hrun : (do return .remove (← l.element t) : Action (ListCall t.Value)) s =
      (.ok (.remove x), u) := Action.bind_ok hl _
  exact ⟨hx.answers hs hc hrun, hx.apply hs hc hrun nofun⟩

theorem HasItems.contains_iff (hx : s.HasItems id t xs) (hs : s.Settled)
    (hid : s.handle h = .object id) (hid' : s.handle h' = .object id)
    (hl : l.element t s = (.ok x, u)) :
    ∃ b, (s.advance (.list (.contains h l))).1.outcome = .ok (.flag b) ∧
      (b = true ↔ ∃ i : Nat, (s.advance (.list (.indexOf h' l))).1.outcome = .ok (.number i)) := by
  obtain ⟨b, hb, hiff⟩ := hx.contains hs hid hl
  refine ⟨b, hb, hiff.trans ?_⟩
  rcases hx.indexOf hs hid' hl with ⟨i, hfirst, hi⟩ | ⟨hnone, hn⟩
  · exact iff_of_true hfirst.exists_mem ⟨i, hi⟩
  · refine iff_of_false (fun ⟨y, hy, hyx⟩ => hnone y hy hyx) fun ⟨i, hi⟩ => ?_
    cases hn.symm.trans hi

theorem HasItems.outcome_remove (hx : s.HasItems id t xs) (hs : s.Settled)
    (hid : s.handle h = .object id) (hid' : s.handle h' = .object id)
    (hl : l.element t s = (.ok x, u)) : (s.advance (.list (.remove h l))).1.outcome =
      (s.advance (.list (.contains h' l))).1.outcome := by
  obtain ⟨⟨b, hb, hiff⟩, -⟩ := hx.remove hs hid hl
  obtain ⟨b', hb', hiff'⟩ := hx.contains hs hid' hl
  rw [hb, hb', Bool.eq_iff_iff.mpr (hiff.trans hiff'.symm)]

theorem HasItems.removes (hx : s.HasItems id t xs) (hs : s.Settled)
    (hid : s.handle h = .object id) (hid' : s.handle h' = .object id)
    (hl : l.element t s = (.ok x, u)) :
    (∀ i : Nat, (s.advance (.list (.indexOf h' l))).1.outcome = .ok (.number i) →
      (s.advance (.list (.remove h l))).2.HasItems id t (xs.take i ++ xs.drop (i + 1))) ∧
    ((s.advance (.list (.indexOf h' l))).1.outcome = .ok .nothing →
      (s.advance (.list (.remove h l))).2.HasItems id t xs) := by
  obtain ⟨-, hitems⟩ := hx.remove hs hid hl
  rcases hx.indexOf hs hid' hl with ⟨i, hfirst, hi⟩ | ⟨hnone, hn⟩
  · rw [ElementType.eraseP_of_firstAt hfirst, List.eraseIdx_eq_take_drop_succ] at hitems
    refine ⟨fun j hj => ?_, fun hn => ?_⟩
    · cases hi.symm.trans hj
      exact hitems
    · cases hi.symm.trans hn
  · rw [ElementType.eraseP_of_not_equal hnone] at hitems
    refine ⟨fun j hj => ?_, fun _ => hitems⟩
    cases hn.symm.trans hj

theorem HasItems.restores (hx : s.HasItems id t xs) (hs : s.Settled)
    (hid : s.handle h = .object id) (hl : l.element t s = (.ok x, u))
    (hok : (s.advance (.list (.insert h i l))).1.outcome = .ok .nothing)
    (hw : w = (s.advance (.list (.insert h i l))).2) (hid' : w.handle h' = .object id)
    (target : Option String) :
    w.GivesOut t x target (w.advance (.list (.removeAt h' i target))).1.outcome
        (w.advance (.list (.removeAt h' i target))).2 ∧
    ((w.advance (.list (.removeAt h' i target))).2.store.IsLive id →
      (w.advance (.list (.removeAt h' i target))).2.HasItems id t xs) := by
  have hc : (Step.list (.insert h i l)).listCall? s id t = some _ := listCall?_of_call? rfl hid
  have hrun := Action.bind_ok hl fun x => (return .insert i x : Action (ListCall t.Value))
  have hinsert := hx.answers hs hc hrun
  rw [hok] at hinsert
  have hi : i ≤ xs.length := by
    by_contra hi
    rw [ListCall.Answers, if_neg hi] at hinsert
    cases hinsert
  have hitems : w.HasItems id t (xs.insertIdx i x) := hw ▸ hx.apply hs hc hrun nofun
  have hsettled : w.Settled := hw ▸ (advance_settled hs _).1
  have hlt : i < (xs.insertIdx i x).length := by
    rw [List.length_insertIdx_of_le_length hi]
    omega
  have hc' : (Step.list (.removeAt h' i target)).listCall? w id t = some _ :=
    listCall?_of_call? rfl hid'
  refine ⟨?_, fun hlive => ?_⟩
  · have hgiven := hitems.answers hsettled hc' (c := .removeAt i target) rfl
    rwa [ListCall.Answers, dif_pos hlt, List.getElem_insertIdx_self] at hgiven
  · have hlast := hitems.apply hsettled hc' (c := .removeAt i target) rfl fun _ => hlive
    rwa [ListCall.apply, List.eraseIdx_insertIdx_self] at hlast

/-- A list is shown alike under all its names. -/
theorem HasItems.advance_toVec (hx : s.HasItems id t xs) (hid : s.handle h = .object id)
    (hid' : s.handle h' = .object id) :
    s.advance (.list (.toVec h)) = s.advance (.list (.toVec h')) := by
  have ho : s.Opened h (some id) (.list t xs) := ⟨hid, hx⟩
  have ho' : s.Opened h' (some id) (.list t xs) := ⟨hid', hx⟩
  unfold Session.advance
  rw [Action.step, Action.step, Action.listStep_toVec_eq ho, Action.listStep_toVec_eq ho']

theorem HasItems.coheres (hx : s.HasItems id t xs) (hs : s.Settled) : s.Coheres id t xs where
  answers _ _ _ _ hc hrun := hx.answers hs hc hrun
  items _ _ _ _ hc hrun hl := hx.apply hs hc hrun hl
  error _ _ _ _ hc hrun := hx.error hs hc hrun
  others _ hc hl := hx.other hs hc hl
  tracks later hl := hx.track_advanceAll hs later hl
  observes _ _ hid hid' := hx.advance_toVec hid hid'
  contains _ _ _ _ _ hid hid' hl := hx.contains_iff hs hid hid' hl
  remove _ _ _ _ _ hid hid' hl := hx.outcome_remove hs hid hid' hl
  removes _ _ _ _ _ hid hid' hl := hx.removes hs hid hid' hl
  restores _ _ _ _ _ hid hl hok _ target hid' := hx.restores hs hid hl hok rfl hid' target

/-- After any steps, all lists answer and change as plain lists. -/
theorem run_coheres (steps : List Step) (hx : (start.advanceAll steps).2.HasItems id t xs) :
    (start.advanceAll steps).2.Coheres id t xs :=
  hx.coheres (run_settled steps)

/-- A list of NaN, one and one again, under two names. The first one is removed, and NaN is not
found. -/
theorem run_coheres_twice :
    ∃ steps one, (start.advanceAll steps).2.HasItems 3 (.scalar .double) [Double.nan, one] ∧
      (start.advanceAll steps).2.Coheres 3 (.scalar .double) [Double.nan, one] := by
  have hx : (start.advanceAll
      [.list (.new "l" (.scalar .double) [.scalar (.double .nan),
          .scalar (.double ⟨0x3ff0000000000000⟩), .scalar (.double ⟨0x3ff0000000000000⟩)]),
        .handle (.copy "m" "l"), .list (.remove "m" (.scalar (.double ⟨0x3ff0000000000000⟩))),
        .list (.remove "l" (.scalar (.double .nan)))]).2.HasItems 3 (.scalar .double)
          [Double.nan, ⟨0x3ff0000000000000⟩] := by
    unfold HasItems
    decide +kernel
  exact ⟨_, _, hx, run_coheres _ hx⟩

end Session

end CountedObjects
