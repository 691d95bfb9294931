import Mathlib.Control.Monad.Basic
import CountedObjects.Proofs.Selection
import CountedObjects.Proofs.Session.CautiousSteps

/-! What the steps of a session register with an activator, and how the activator resolves names and
selects constructors by it. -/
namespace CountedObjects

/-- The activator that a step is about. -/
def ActivatorStep.subject : ActivatorStep → String
  | new a _ | registerType a _ | registerDefault a _ | registerEnum a _
  | registerConstructor a _ _ _ | getType a _ | constructors a _ | admits a _ _ _ _ | invoke a _ _ _
  | create a _ _ _ | createByName a _ _ _ | parseEnum a _ _ _ | summary a => a

/-- What a step adds to what was registered with an activator. A null type is not registered. -/
def ActivatorStep.registrations (s : Session) : ActivatorStep → List (Registration Construction)
  | registerType _ t => (s.type t).toList.map .named
  | registerDefault _ k => [.ofKind (s.realm.registry.typeOf k).1 k]
  | registerEnum _ e => [.named (s.realm.registry.enumType e).1]
  | registerConstructor _ t ps b =>
    (s.type t).toList.map fun d => .constructible ⟨d, ps.map fun p => ⟨p.1, s.type p.2⟩, b⟩
  | _ => []

/-- Whether a step makes a new activator in place of one. -/
def Step.creates (a : String) : Step → Bool
  | .activator (.new b _) => b == a
  | _ => false

namespace Session

variable {s t : Session} {a b : String} {η : History Construction}

def registers (a : String) (s : Session) : Step → List (Registration Construction)
  | .activator step => if step.subject = a then step.registrations s else []
  | _ => []

/-- What was registered with an activator after one more step. -/
def extend (a : String) (s : Session) (η : History Construction) (step : Step) :
    History Construction :=
  match step with
  | .activator (.new b o) =>
    if b = a then ⟨o, Registration.builtins o s.realm.registry⟩ else η
  | step => η.add (s.registers a step)

/-- What was registered with an activator after some steps. -/
def history (a : String) : Session → History Construction → List Step → History Construction
  | _, η, [] => η
  | s, η, step :: steps => history a (s.advance step).2 (s.extend a η step) steps

/-- What some steps register with an activator. -/
def registered (a : String) : Session → List Step → List (Registration Construction)
  | _, [] => []
  | s, step :: steps => s.registers a step ++ registered a (s.advance step).2 steps

theorem extend_of_not_creates {step : Step} (h : step.creates a = false) :
    s.extend a η step = η.add (s.registers a step) := by
  unfold extend
  split
  · next b o =>
    have hne : b ≠ a := beq_eq_false_iff_ne.mp h
    rw [if_neg hne, registers]
    split
    · exact η.add_nil.symm
    · exact η.add_nil.symm
  · rfl

/-- Without a new activator in its place, an activator keeps what was registered with it. -/
theorem history_eq_add (steps : List Step) (h : ∀ step ∈ steps, step.creates a = false) :
    history a s η steps = η.add (registered a s steps) := by
  induction steps generalizing s η with
  | nil => exact η.add_nil.symm
  | cons step steps ih =>
    obtain ⟨hstep, hsteps⟩ := List.forall_mem_cons.mp h
    rw [history, registered, ih hsteps, extend_of_not_creates hstep, History.add_add]

theorem activator_setActivator (s : Session) (b : String) (x : Activator Construction)
    (a : String) :
    (s.setActivator b x).activator a = if a = b then x else s.activator a := by
  have hl : (s.setActivator b x).activators.lookup a =
      if a = b then some x else s.activators.lookup a := Named.lookup_set ..
  rw [activator, hl]
  split <;> rfl

theorem activator_eq (h : t.activators = s.activators) (a : String) :
    t.activator a = s.activator a := by
  rw [activator, h, activator]

/-- A step that registers with one activator leaves the others alone. -/
theorem records_setActivator (h : (s.activator a).Records η) {u : Session}
    (hu : u.activators = s.activators) (rs : List (Registration Construction)) :
    ((u.setActivator b ((s.activator b).registerAll rs)).activator a).Records
      (η.add (if b = a then rs else [])) := by
  rw [activator_setActivator, activator_eq hu]
  by_cases hab : a = b
  · subst hab
    rw [if_pos rfl, if_pos rfl]
    exact h.registerAll rs
  · rw [if_neg hab, if_neg (Ne.symm hab), η.add_nil]
    exact h

/-! A type is registered if there is one, and the step is refused if there is none. -/

theorem registerType_run (s : Session) (b t : String) :
    Action.activatorStep (.registerType b t) s =
      match s.type t with
      | some d => (.ok .nothing, s.setActivator b ((s.activator b).bindType d))
      | none => (.error (.abort .nullReference), s) := by
  refine (Action.bind_ok (Action.get_run s) _).trans ?_
  cases s.type t <;> rfl

theorem registerConstructor_run (s : Session) (b t : String) (ps : List (String × String))
    (x : Construction) :
    Action.activatorStep (.registerConstructor b t ps x) s =
      match s.type t with
      | some d =>
        let act := (s.activator b).addConstructor d (ps.map fun p => ⟨p.1, s.type p.2⟩) x
        (.ok (.number (act.constructorsOf d).length), s.setActivator b act)
      | none => (.error (.abort .nullReference), s) := by
  refine (Action.bind_ok (Action.get_run s) _).trans ?_
  cases s.type t <;> rfl

theorem activators_endStep (s : Session) : s.endStep.activators = s.activators := rfl

theorem activators_advance {r : Result Answer} {u : Session} (step : Step)
    (hrun : Action.step step s = (r, u)) : (s.advance step).2.activators = u.activators := by
  rw [advance_eq_endStep step hrun, activators_endStep]

/-- What a registration does that is not refused. -/
theorem records_registration (h : (s.activator a).Records η) {step : ActivatorStep}
    {r : Result Answer} {u : Session} (hu : u.activators = s.activators)
    (hc : (Step.activator step).creates a = false)
    (hrun : Action.activatorStep step s = (r, u.setActivator step.subject
      ((s.activator step.subject).registerAll (step.registrations s)))) :
    ((s.advance (.activator step)).2.activator a).Records (s.extend a η (.activator step)) := by
  rw [activator_eq (activators_advance (.activator step) hrun), extend_of_not_creates hc]
  exact records_setActivator h hu _

/-- A step that changes no activator registers nothing. -/
theorem records_of_activators_eq (h : (s.activator a).Records η) {step : Step}
    (hc : step.creates a = false) (hr : s.registers a step = [])
    (ht : (s.advance step).2.activators = s.activators) :
    ((s.advance step).2.activator a).Records (s.extend a η step) := by
  rw [activator_eq ht, extend_of_not_creates hc, hr, η.add_nil]
  exact h

/-- A new activator has the built-in registrations, and the others are as they were. -/
theorem records_new (h : (s.activator a).Records η) (b : String) (o : ActivatorOptions) :
    ((s.advance (.activator (.new b o))).2.activator a).Records
      (s.extend a η (.activator (.new b o))) := by
  let act := Activator.make o s.realm
  have hrun : Action.activatorStep (.new b o) s = (.ok (.options act.1.options),
      ({ s with realm := act.2 } : Session).setActivator b act.1) := rfl
  rw [activator_eq (activators_advance (.activator (.new b o)) hrun), activator_setActivator,
    extend]
  by_cases hab : a = b
  · rw [if_pos hab, if_pos hab.symm]
    exact Activator.make_records o s.realm
  · rw [if_neg hab, if_neg (Ne.symm hab)]
    exact h

/-- A registration of a type behind a handle, which is refused if the handle is null. -/
theorem records_of_demand (h : (s.activator a).Records η) {step : ActivatorStep} {type : String}
    {reg : Descriptor → Registration Construction} {x : Descriptor → Result Answer}
    (hc : (Step.activator step).creates a = false)
    (hregs : step.registrations s = (s.type type).toList.map reg)
    (hrun : Action.activatorStep step s =
      match s.type type with
      | some d =>
        (x d, s.setActivator step.subject ((s.activator step.subject).register (reg d)))
      | none => (.error (.abort .nullReference), s)) :
    ((s.advance (.activator step)).2.activator a).Records (s.extend a η (.activator step)) := by
  cases ht : s.type type with
  | none =>
    rw [ht] at hrun hregs
    have hnone : s.registers a (.activator step) = [] := ite_eq_right_iff.mpr fun _ => hregs
    exact records_of_activators_eq h hc hnone (activators_advance (.activator step) hrun)
  | some d =>
    rw [ht] at hrun hregs
    apply records_registration (u := s) (r := x d) h rfl hc
    rw [hregs]
    exact hrun

theorem registers_of_not_isRegistration {step : Step} (hr : step.isRegistration = false) :
    s.registers a step = [] ∧ step.creates a = false := by
  cases step with
  | activator step =>
    cases step with
    | new a o | registerType a type | registerDefault a k | registerEnum a e
    | registerConstructor a type parameters b => cases hr
    | _ => exact ⟨ite_self _, rfl⟩
  | _ => exact ⟨rfl, rfl⟩

theorem Sound.registered_advance (hs : s.Sound) (h : (s.activator a).Records η) (step : Step) :
    ((s.advance step).2.activator a).Records (s.extend a η step) := by
  cases hr : step.isRegistration with
  | false =>
    obtain ⟨hnone, hc⟩ := registers_of_not_isRegistration (s := s) (a := a) hr
    exact records_of_activators_eq h hc hnone (Action.step_cautious hs hr).activators
  | true =>
    cases step with
    | activator step =>
      cases step with
      | new b o => exact records_new h b o
      | registerType b t => exact records_of_demand h rfl rfl (registerType_run s b t)
      | registerDefault b k =>
        let u : Session :=
          { s with realm := { s.realm with registry := (s.realm.registry.typeOf k).2 } }
        exact records_registration (u := u) h rfl rfl rfl
      | registerEnum b e =>
        let u : Session :=
          { s with realm := { s.realm with registry := (s.realm.registry.enumType e).2 } }
        exact records_registration (u := u) h rfl rfl rfl
      | registerConstructor b t ps x =>
        exact records_of_demand h rfl rfl (registerConstructor_run s b t ps x)
      | _ => cases hr
    | _ => cases hr

theorem Settled.registered_advanceAll (hs : s.Settled) (h : (s.activator a).Records η)
    (steps : List Step) : ((s.advanceAll steps).2.activator a).Records (history a s η steps) := by
  induction steps generalizing s η with
  | nil => exact h
  | cons step steps ih => exact ih (advance_settled hs step).1 (hs.sound.registered_advance h step)

/-- After any steps, the tables of an activator have what was registered with it. -/
theorem run_registered (steps : List Step) (a : String) :
    ((start.advanceAll steps).2.activator a).Records (history a start .unmade steps) := by
  have hstart : (start.activator a).Records .unmade := Activator.records_nil _
  exact start_settled.registered_advanceAll hstart steps

/-- After any steps, a name resolves to the first type registered under it as a full name, or else
to the first registered under it as an unqualified one, or else to nothing. -/
theorem run_resolves (steps : List Step) (a : String) :
    ((start.advanceAll steps).2.activator a).Resolves (history a start .unmade steps) :=
  (run_registered steps a).resolves

/-- After any steps, a name that resolves keeps its type through all that is registered later if it
is the full name of a type. If it is an unqualified name, the first type gets it that is registered
later and has it as its full name. -/
theorem run_keeps_names (steps later : List Step) (a : String)
    (hlater : ∀ step ∈ later, step.creates a = false) :
    let s := (start.advanceAll steps).2
    let t := (s.advanceAll later).2
    let η := history a start .unmade steps
    ∀ name d, (s.activator a).getType name = .ok d →
      ((∃ e ∈ η.types, e.fullName = name) → (t.activator a).getType name = .ok d) ∧
      ((∀ e ∈ η.types, e.fullName ≠ name) →
        let added := (registered a s later).map Registration.type
        (t.activator a).getType name = .ok ((added.find? (·.fullName == name)).getD d)) := by
  intro s t η name d hd
  have hs : (s.activator a).Records η := run_registered steps a
  have ht : (t.activator a).Records (η.add (registered a s later)) := by
    have hrun := (run_settled steps).registered_advanceAll hs later
    rwa [history_eq_add later hlater] at hrun
  have hres : η.resolve? name = some d := hs.getType_eq_ok_iff.mp hd
  constructor
  · intro hfull
    exact ht.getType_eq_ok_iff.mpr (History.resolve?_add_of_mem _ hres hfull)
  · intro hfull added
    exact ht.getType_eq_ok_iff.mpr (History.resolve?_add_of_forall _ hres hfull)

/-- Two types have one full name, and the first one keeps it. -/
theorem run_keeps_names_full :
    ∃ steps later d,
      let s := (start.advanceAll steps).2
      (∀ step ∈ later, step.creates "a" = false) ∧
        (s.activator "a").getType "Dot.Test.Foo" = .ok d ∧
        ((s.advanceAll later).2.activator "a").getType "Dot.Test.Foo" = .ok d := by
  have hlater : ∀ step ∈ [Step.type (.new "B" 1 "Dot.Test" "Foo" []),
      .activator (.registerType "a" "B")], step.creates "a" = false := by simp [Step.creates]
  have hd : ((start.advanceAll [.activator (.new "a" ⟨false, true⟩),
      .type (.new "A" 0 "Dot.Test" "Foo" []), .activator (.registerType "a" "A")]).2.activator
        "a").getType "Dot.Test.Foo" = .ok (.root 26 (.custom 0) (.plain "Dot.Test" "Foo")) := by
    decide +kernel
  have hmem := ((run_registered _ "a").resolves.named _ _ hd).1
  exact ⟨_, _, _, hlater, hd, (run_keeps_names _ _ "a" hlater _ _ hd).1 ⟨_, hmem, by decide⟩⟩

/-- Two types have one unqualified name, and for the second one it is the full name. -/
theorem run_rebinds_name :
    ∃ steps later d e,
      let s := (start.advanceAll steps).2
      (∀ step ∈ later, step.creates "a" = false) ∧
        (s.activator "a").getType "Foo" = .ok d ∧
        ((s.advanceAll later).2.activator "a").getType "Foo" = .ok e ∧ d ≠ e := by
  have hd : ((start.advanceAll [.activator (.new "a" ⟨false, true⟩),
      .type (.new "A" 0 "Dot.Test" "Foo" []), .activator (.registerType "a" "A")]).2.activator
        "a").getType "Foo" = .ok (.root 26 (.custom 0) (.plain "Dot.Test" "Foo")) := by
    decide +kernel
  have he : (((start.advanceAll [.activator (.new "a" ⟨false, true⟩),
      .type (.new "A" 0 "Dot.Test" "Foo" []), .activator (.registerType "a" "A")]).2.advanceAll
        [.type (.new "B" 1 "" "Foo" []), .activator (.registerType "a" "B")]).2.activator
          "a").getType "Foo" = .ok (.root 27 (.custom 1) (.plain "" "Foo")) := by
    decide +kernel
  exact ⟨_, _, _, _, by simp [Step.creates], hd, he, by decide⟩

/-- An activator creates instances by what was registered with it, whatever the bodies of its
constructors do, if no registered parameter has a null type and no argument a null descriptor or
base. So does an activator of a session after any steps. -/
theorem run_creates :
    (∀ {β : Type} (run : Running β) (η : History β), η.IsTyped →
      ∀ (r : Realm) (hs : List Handle), (∀ h ∈ hs, r.store.Describes h) →
        (Activator.ofHistory η).Creates run η r hs) ∧
    ∀ (steps : List Step) (a : String),
      let act := (start.advanceAll steps).2.activator a
      let η := history a start .unmade steps
      η.IsTyped → ∀ (r : Realm) (hs : List Handle), (∀ h ∈ hs, r.store.Describes h) →
        act.Creates Construction.run η r hs :=
  ⟨fun run η hη _ _ hh => (Activator.records_ofHistory η).creates hη hh run,
    fun steps a hη _ _ hh => (run_registered steps a).creates hη hh Construction.run⟩

/-- A dog is given twice, and the body gives out its second argument. Then it is given once, where
one constructor takes a text and another one an animal. -/
theorem run_creates_dog :
    ∃ steps,
      let s := (start.advanceAll steps).2
      let η := history "a" start .unmade steps
      s.store.Describes (.object 0) ∧
        (∃ θ : History (List Handle → Realm → Result Handle × Realm), θ.IsTyped ∧
          (Activator.ofHistory θ).Creates (fun _ body => body) θ s.realm [.object 0, .object 0]) ∧
        η.IsTyped ∧ (s.activator "a").Creates Construction.run η s.realm [.object 0] := by
  have htyped : (history "a" start .unmade [.handle (.new "d" .dog),
      .activator (.new "a" ⟨false, true⟩),
      .activator (.registerConstructor "a" "Dog" [("x", "String")] .refuse),
      .activator (.registerConstructor "a" "Dog" [("x", "Animal")] (.argument 0))]).IsTyped := by
    unfold History.IsTyped
    decide +kernel
  have hdog : (start.advanceAll [.handle (.new "d" .dog),
      .activator (.new "a" ⟨false, true⟩),
      .activator (.registerConstructor "a" "Dog" [("x", "String")] .refuse),
      .activator (.registerConstructor "a" "Dog" [("x", "Animal")]
        (.argument 0))]).2.store.Describes (.object 0) := by
    refine .inr ⟨.derived 20 (.kind .dog) Kind.dog.draft (.derived 19 (.kind .animal)
      Kind.animal.draft (.root 0 .object ⟨"System", "Object", true, none⟩)), ?_, trivial⟩
    decide +kernel
  let dog : Descriptor := .root 0 (.kind .dog) Kind.dog.draft
  let second : List Handle → Realm → Result Handle × Realm :=
    fun hs r => (.ok (hs[1]?.getD .null), r)
  let θ : History (List Handle → Realm → Result Handle × Realm) :=
    ⟨⟨false, true⟩, [.constructible ⟨dog, [⟨"x", some dog⟩, ⟨"y", some dog⟩], second⟩]⟩
  have hθ : θ.IsTyped := by
    simp [History.IsTyped, History.constructors, Registration.constructor?, θ]
  have hdogs := List.forall_mem_cons.mpr ⟨hdog, List.forall_mem_singleton.mpr hdog⟩
  exact ⟨_, hdog, ⟨θ, hθ, run_creates.1 _ θ hθ _ _ hdogs⟩, htyped,
    run_creates.2 _ "a" htyped _ _ (List.forall_mem_singleton.mpr hdog)⟩

end Session

end CountedObjects
