import CountedObjects.Proofs.Session.Flags

/-! Every step keeps all descriptors of enum values flagged, if it names no enumeration that is a
type of objects. -/
namespace CountedObjects

namespace Action

open Literal (AllApart)

variable {β : Type}

/-! How the steps on collections begin. -/

theorem openList_flags (h : String) : Flags (openList h) := by
  refine (Flags.ask _).bind fun _ => (Flags.ask _).bind fun _ => ?_
  split
  · exact .pure _
  · exact (Flags.convert _ _).bind fun _ => .pure _

theorem openQueue_flags (h : String) : Flags (openQueue h) := by
  refine (Flags.ask _).bind fun _ => (Flags.ask _).bind fun _ => ?_
  split
  · exact .pure _
  · exact (Flags.convert _ _).bind fun _ => .pure _

theorem openSet_flags (h : String) : Flags (openSet h) := by
  refine (Flags.ask _).bind fun _ => (Flags.ask _).bind fun _ => ?_
  split
  · exact .pure _
  · exact (Flags.convert _ _).bind fun _ => .pure _

theorem openDictionary_flags (h : String) : Flags (openDictionary h) := by
  refine (Flags.ask _).bind fun _ => (Flags.ask _).bind fun _ => ?_
  split
  · exact .pure _
  · exact (Flags.convert _ _).bind fun _ => .pure _

/-- A collection is opened and asked for. -/
theorem fromOpened_flags {O : Type} {op : Action O} {id : O → Option Nat} {f : O → Nat → Action β}
    (hop : Flags op) (hf : ∀ o i, Flags (f o i)) :
    Flags (do let o ← op; f o (← demandId (id o))) :=
  hop.bind fun o => (Flags.demandId _).bind fun i => hf o i

/-- A collection is opened, an argument is built for it, and only then is it asked for. -/
theorem fromArgument_flags {O : Type} {op : Action O} {id : O → Option Nat} {ρ : O → Type}
    {a : (o : O) → Action (ρ o)} {f : (o : O) → ρ o → Nat → Action β} (hop : Flags op)
    (ha : ∀ o, Flags (a o)) (hf : ∀ o x i, Flags (f o x i)) :
    Flags (do let o ← op; let x ← a o; f o x (← demandId (id o))) :=
  hop.bind fun o => (ha o).bind fun x => (Flags.demandId _).bind fun i => hf o x i

theorem listStep_flags (step : ListStep) (he : AllApart (Step.list step).written) :
    Flags (listStep step) := by
  cases step with
  | new h t ls => exact (Flags.elements he t).bind fun _ => .new h _ _
  | add h l =>
    apply fromArgument_flags (openList_flags h) fun o => .element he List.mem_cons_self o.element
    intro o x id
    exact .replaces id _ _
  | addObject h l =>
    apply fromArgument_flags (openList_flags h) fun _ => .build he List.mem_cons_self
    intro o x id
    exact (Flags.convert _ _).bind fun _ => .replaces id _ _
  | addRange h source =>
    apply fromArgument_flags (openList_flags h) fun o => .elementsOf he o.element
    intro o xs id
    exact .replaces id _ _
  | get h i target =>
    apply fromOpened_flags (openList_flags h)
    intro o id
    exact .ofResult fun x _ => .deliversElement o.element x target _
  | removeAt h i target =>
    apply fromOpened_flags (openList_flags h)
    intro o id
    exact .ofResult fun x _ => .removes o.element x.1 id _ target _
  | set h i l | insert h i l =>
    apply fromArgument_flags (openList_flags h) fun o => .element he List.mem_cons_self o.element
    intro o x id
    exact .ofResult fun _ _ => .replaces id _ _
  | remove h l =>
    apply fromArgument_flags (openList_flags h) fun o => .element he List.mem_cons_self o.element
    intro o x id
    apply (Flags.reads fun _ => rfl).bind
    intro s
    split
    · exact .pure _
    · exact .replaces id _ _
  | contains h l | indexOf h l =>
    apply fromArgument_flags (openList_flags h) fun o => .element he List.mem_cons_self o.element
    intro o x id
    exact (Flags.reads fun _ => rfl).bind fun _ => .pure _
  | clear h => exact fromOpened_flags (openList_flags h) fun o id => .replaces id _ _
  | count h => exact fromOpened_flags (openList_flags h) fun o id => .pure _
  | toVec h =>
    apply fromOpened_flags (openList_flags h)
    intro o id
    exact (Flags.showElements o.element o.items).map _
  | sort h order =>
    apply fromOpened_flags (openList_flags h)
    intro o id
    apply (Flags.reads fun _ => rfl).bind
    intro s
    apply (Flags.replace id _).bind
    intro _
    exact .ofResult fun _ _ => (Flags.showElements o.element _).map _

theorem queueStep_flags (step : QueueStep) (he : AllApart (Step.queue step).written) :
    Flags (queueStep step) := by
  cases step with
  | new h t => exact .new h _ _
  | enqueue h l =>
    apply fromArgument_flags (openQueue_flags h) fun o => .element he List.mem_cons_self o.element
    intro o x id
    exact .replaces id _ _
  | dequeue h target =>
    apply fromOpened_flags (openQueue_flags h)
    intro o id
    exact .ofResult fun x _ => .removes o.element x.1 id _ target _
  | peek h target =>
    apply fromOpened_flags (openQueue_flags h)
    intro o id
    exact .ofResult fun x _ => .deliversElement o.element x target _
  | tryDequeue h target =>
    apply fromOpened_flags (openQueue_flags h)
    intro o id
    split
    · exact .pure _
    · exact .removes o.element _ id _ target fun v => Answer.optional (some v)
  | count h => exact fromOpened_flags (openQueue_flags h) fun o id => .pure _
  | clear h => exact fromOpened_flags (openQueue_flags h) fun o id => .replaces id _ _

theorem setStep_flags (step : SetStep) (he : AllApart (Step.set step).written) :
    Flags (setStep step) := by
  cases step with
  | new h t => exact .new h _ _
  | add h l | remove h l =>
    apply fromArgument_flags (openSet_flags h) fun o => .element he List.mem_cons_self o.element
    intro o x id
    exact (Flags.ask _).bind fun _ => .replaces id _ _
  | contains h l =>
    apply fromArgument_flags (openSet_flags h) fun o => .element he List.mem_cons_self o.element
    intro o x id
    exact (Flags.ask _).bind fun _ => .pure _
  | union h source | intersect h source =>
    apply fromArgument_flags (openSet_flags h) fun o => .elementsOf he o.element
    intro o xs id
    exact (Flags.ask _).bind fun _ => .replaces id _ _
  | count h => exact fromOpened_flags (openSet_flags h) fun o id => .pure _
  | clear h => exact fromOpened_flags (openSet_flags h) fun o id => .replaces id _ _
  | toVec h =>
    apply fromOpened_flags (openSet_flags h)
    intro o id
    exact (Flags.showElements o.element _).map _

theorem dictionaryStep_flags (step : DictionaryStep)
    (he : AllApart (Step.dictionary step).written) : Flags (dictionaryStep step) := by
  cases step with
  | new h k v => exact .new h _ _
  | add h k v =>
    apply (openDictionary_flags h).bind
    intro o
    apply (Flags.element he List.mem_cons_self o.key).bind
    intro key
    apply (Flags.element he (List.mem_cons_of_mem _ List.mem_cons_self) o.value).bind
    intro value
    apply (Flags.demandId _).bind
    intro id
    apply (Flags.ask _).bind
    intro q
    split
    · exact (Flags.query _).bind fun _ => (Flags.throw _).bind fun _ => .replaces id _ _
    · exact (Flags.pure _).bind fun _ => .replaces id _ _
  | set h k v =>
    apply (openDictionary_flags h).bind
    intro o
    apply (Flags.element he List.mem_cons_self o.key).bind
    intro key
    apply (Flags.element he (List.mem_cons_of_mem _ List.mem_cons_self) o.value).bind
    intro value
    apply (Flags.demandId _).bind
    intro id
    apply (Flags.ask _).bind
    intro q
    apply (Flags.mapOption fun x => .toObject o.value x).bind
    intro old
    exact (Flags.replace id _).bind fun _ => .showOptional old
  | get h k target =>
    apply fromArgument_flags (openDictionary_flags h) fun o => .element he List.mem_cons_self o.key
    intro o key id
    apply (Flags.ask _).bind
    intro q
    split
    · exact .deliversElement o.value _ target _
    · exact (Flags.query _).bind fun _ => .throw _
  | tryGet h k =>
    apply fromArgument_flags (openDictionary_flags h) fun o => .element he List.mem_cons_self o.key
    intro o key id
    apply (Flags.ask _).bind
    intro q
    exact (Flags.mapOption fun x => .toObject o.value x).bind fun value => .showOptional value
  | containsKey h k =>
    apply fromArgument_flags (openDictionary_flags h) fun o => .element he List.mem_cons_self o.key
    intro o key id
    exact (Flags.ask _).bind fun _ => .pure _
  | containsValue h v =>
    apply fromArgument_flags (openDictionary_flags h)
      fun o => .element he List.mem_cons_self o.value
    intro o value id
    exact (Flags.reads fun _ => rfl).bind fun _ => .pure _
  | remove h k =>
    apply fromArgument_flags (openDictionary_flags h) fun o => .element he List.mem_cons_self o.key
    intro o key id
    exact (Flags.ask _).bind fun _ => .replaces id _ _
  | keys h | values h =>
    apply fromOpened_flags (openDictionary_flags h)
    intro o id
    exact (Flags.showElements _ _).map _
  | count h => exact fromOpened_flags (openDictionary_flags h) fun o id => .pure _
  | clear h => exact fromOpened_flags (openDictionary_flags h) fun o id => .replaces id _ _

theorem dump_flags (depth : Nat) (h : Handle) : Flags (dump depth h) := by
  induction depth generalizing h with
  | zero =>
    unfold dump
    apply (Flags.enumerate h).bind
    intro o
    cases o with
    | none => exact .query _
    | some hs => exact (Flags.query _).bind fun _ => (Flags.query _).bind fun _ => .pure _
  | succ depth ih =>
    unfold dump
    apply (Flags.enumerate h).bind
    intro o
    cases o with
    | none => exact .query _
    | some hs =>
      apply (Flags.query _).bind
      intro _
      apply (Flags.query _).bind
      intro _
      apply (Flags.mapM fun x => ih x).bind
      intro vs
      exact .reads ((isUnordered_reads h).bind fun _ => .pure _)

theorem copyHandle_flags (name source : String) :
    Flags (change fun s => s.setHandle name (s.handle source)) :=
  .change fun _ hs => Session.flagged_setHandle hs name _

theorem handleStep_flags (step : HandleStep) (he : AllApart (Step.handle step).written) :
    Flags (handleStep step) := by
  cases step with
  | new h v => exact (Flags.build he List.mem_cons_self).bind fun o => .delivers _ o _
  | copy h source => exact (copyHandle_flags h source).map _
  | assign h source => exact (copyHandle_flags h source).bind fun _ => (Flags.ask _).map _
  | reclaim h => exact (copyHandle_flags h h).bind fun _ => (Flags.ask _).map _
  | take h source =>
    apply (Flags.ask _).bind
    intro x
    apply (Flags.share x).bind
    intro o
    apply Flags.bind _ fun _ => .pure _
    exact .change fun _ hs =>
      Session.flagged_setHandle (Session.flagged_clearHandle hs source) h o
  | reset h => exact (Flags.setHandle h .null).map _
  | drop h =>
    apply (Flags.ask _).bind
    intro known
    exact (Flags.change fun _ hs => Realm.flagged_releaseAll hs _).map _
  | refs h | isNull h | sameHandle a b | equals a b | keyEquals a b | isKind h k | downcast h k =>
    exact (Flags.ask _).map _
  | keyHash h => exact (Flags.ask _).bind fun _ => (Flags.ask _).bind fun _ => (Flags.ask _).map _
  | «show» h | display h => exact (Flags.ask _).bind fun _ => (Flags.query _).map _
  | unbox h k => exact (Flags.ask _).bind fun _ => (Flags.convert _ _).map _
  | dump h => exact (Flags.ask _).bind fun o => (dump_flags dumpDepth o).map _
  | tryGet h =>
    apply (Flags.ask _).bind
    intro o
    split
    · exact .throw _
    · exact (Flags.query _).map _
  | debug h =>
    apply (Flags.ask _).bind
    intro o
    split
    · exact .pure _
    · exact (Flags.query _).map _
  | text h => exact (Flags.ask _).bind fun _ => (Flags.query _).bind fun _ => (Flags.query _).map _
  | hash h => exact (Flags.ask _).bind fun o => (Flags.reads (hash_reads o)).bind fun _ => .pure _
  | type h | equalsMethod a b | count h =>
    exact (Flags.ask _).bind fun _ => (Flags.query _).bind fun _ => (Flags.ask _).map _
  | hashEquals a b =>
    apply (Flags.ask _).bind
    intro x
    apply (Flags.reads (hash_reads x)).bind
    intro v
    apply (Flags.ask _).bind
    intro y
    exact (Flags.reads (hash_reads y)).bind fun _ => .pure _
  | tryCast h k target | cast h k target =>
    exact (Flags.ask _).bind fun _ => (Flags.convert _ _).bind fun o => .delivers target o _
  | instanceOf h type =>
    exact (Flags.ask _).bind fun _ => (Flags.ask _).bind fun _ => (Flags.query _).map _
  | fromObject h t target =>
    apply (Flags.ask _).bind
    intro o
    exact (Flags.convert _ _).bind fun v => .deliversElement t v target _
  | fromOption h t =>
    apply (Flags.ask _).bind
    intro o
    apply (Flags.convert _ _).bind
    intro v
    cases v with
    | none => exact .pure _
    | some v => exact (Flags.toObject t v).bind fun _ => (Flags.query _).map _
  | parts h key value =>
    apply (Flags.ask _).bind
    intro x
    apply (Flags.convert _ _).bind
    intro o
    apply (Flags.ask _).bind
    intro b
    split
    · next k v =>
      apply (Flags.share k).bind
      intro k
      apply (Flags.share v).bind
      intro v
      apply (Flags.reads (views_reads _)).bind
      intro vs
      exact (Flags.storeAs key k).bind fun _ => (Flags.storeAs value v).map _
    · exact .throw _
  | enumerate h =>
    apply (Flags.ask _).bind
    intro o
    apply (Flags.enumerate o).bind
    intro hs
    cases hs with
    | none => exact .pure _
    | some hs =>
      exact .reads ((isUnordered_reads o).bind fun _ => (listed_reads _ hs).bind fun _ => .pure _)
  | openEnumerator h e =>
    apply Flags.get
    intro s hs
    cases ht : s.openEnumerator? e (s.handle h) with
    | none => exact Realm.flagged_releaseAll hs _
    | some t => exact Session.flagged_openEnumerator? hs ht
  | snapshot e vs =>
    apply (Flags.buildAll he).bind
    intro hs
    apply Flags.bind _ fun _ => .pure _
    exact .change fun _ h => Realm.flagged_releaseAll (Realm.flagged_shareAll h hs) _
  | next e target =>
    apply Flags.get
    intro s hs
    cases ht : s.takeNext? e with
    | none => exact hs
    | some p =>
      have hdelivers := Flags.delivers target p.1 fun v => Answer.optional (some v)
      exact hdelivers p.2 (Session.flagged_takeNext? hs ht)
  | rest e =>
    apply Flags.get
    intro s hs
    cases ht : s.takeRest? e with
    | none => exact hs
    | some p =>
      have hlisted := (Flags.reads (listed_reads p.1.isUnordered p.1.items)).map Answer.objects
      exact hlisted p.2 (Session.flagged_takeRest? hs ht)

theorem typeStep_flags (step : TypeStep) : Flags (typeStep step) := by
  have hdemand (name : String) : Flags (demandType name) := .reads (demandType_reads name)
  cases step with
  | new target id space name revisions =>
    apply Flags.get
    intro s hs
    exact hs.of_registry hs.registry
  | info type | name type n | ordinal type name => exact (hdemand type).map _
  | base type =>
    apply (hdemand type).bind
    intro d
    split
    · exact .pure _
    · exact (Flags.ask _).map _
  | subclass type of | assignable type of =>
    exact (hdemand type).bind fun _ => (hdemand of).bind fun _ => .ofResult fun _ _ => .pure _
  | compare type of =>
    exact (hdemand type).bind fun _ => (hdemand of).bind fun _ => (Flags.ask _).map _
  | lookup type =>
    apply (hdemand type).bind
    intro d
    apply (Flags.ask _).bind
    intro o
    cases o with
    | none => exact .pure _
    | some e => exact (Flags.ask _).map _

theorem demandEnumValue_flags (h : String) : Flags (demandEnumValue h) :=
  (Flags.ask _).bind fun _ => (Flags.convert _ _).bind fun _ => .query _

theorem enumStep_flags (step : EnumStep)
    (he : ∀ e ∈ (Step.enumeration step).enumerations, e.IsApart) : Flags (enumStep step) := by
  cases step with
  | unbox h e =>
    apply (Flags.ask _).bind
    intro o
    split
    · exact .throw _
    · exact (Flags.enumType e).bind fun _ => (Flags.query _).map _
  | member h e =>
    apply (demandEnumValue_flags h).bind
    intro d
    apply (Flags.enumType e).bind
    intro expected
    exact .ofObject fun _ _ => .pure _
  | ofOrdinal e n =>
    have hbox (m : String × Int32) : Flags (boxMember e m) :=
      .boxMember (he e List.mem_cons_self) m
    simp only [enumStep]
    split
    · exact .pure _
    · next m _ =>
      intro s hs
      exact ((hbox m).bind fun o => (Flags.query (·.view o)).map Answer.object) s hs
  | parts h => exact (demandEnumValue_flags h).map _

theorem activatorStep_flags (step : ActivatorStep)
    (he : ∀ e ∈ (Step.activator step).enumerations, e.IsApart) : Flags (activatorStep step) := by
  cases step with
  | new a o =>
    apply Flags.get
    intro s hs
    exact Activator.flagged_make o hs
  | registerType a type =>
    apply Flags.get
    intro s hs
    cases ht : (s.activator a).registerType (s.type type) <;> exact hs
  | registerDefault a k =>
    apply Flags.get
    intro s hs
    exact hs.of_registry (Registry.flagged_typeOf hs.registry k)
  | registerEnum a e =>
    apply (Flags.enumType e).bind
    intro d
    have hset : Flags (change fun s => s.setActivator a ((s.activator a).bindType d)) :=
      .change fun _ hs => hs
    exact hset.bind fun _ => (Flags.ask _).map _
  | registerConstructor a type ps b =>
    apply Flags.get
    intro s hs
    cases ht : (s.type type).demand <;> exact hs
  | getType a name => exact (Flags.ask _).bind fun _ => .ofObject fun _ _ => (Flags.ask _).map _
  | constructors a type =>
    exact (Flags.ask _).bind fun _ => .ofResult fun _ _ => (Flags.ask _).map _
  | admits a type i args derived =>
    apply (Flags.buildAll he).bind
    intro hs
    exact (Flags.reads (constructorAt_reads a type i)).bind fun _ => (Flags.query _).map _
  | invoke a type i args =>
    apply (Flags.buildAll he).bind
    intro hs
    apply (Flags.reads (constructorAt_reads a type i)).bind
    intro c
    apply (Flags.attempt fun _ hr => Constructor.flagged_invoke hr c hs).bind
    intro o
    exact (Flags.query _).map _
  | create a type args target =>
    apply (Flags.buildAll he).bind
    intro hs
    apply (Flags.reads fun _ => rfl).bind
    intro s
    exact (Flags.attempt fun _ hr => Activator.flagged_create hr _ _ hs).bind fun o =>
      .delivers target o _
  | createByName a name args target =>
    apply (Flags.buildAll he).bind
    intro hs
    apply (Flags.reads fun _ => rfl).bind
    intro s
    exact (Flags.attempt fun _ hr => Activator.flagged_createByName hr _ _ hs).bind fun o =>
      .delivers target o _
  | parseEnum a name text target =>
    intro s hs
    have hparse : Flags (do
        let b ← ofObject ((s.activator a).parseEnum name text)
        return Answer.object (← deliver target (← make b))) :=
      .ofObject fun _ hb =>
        (Flags.make (Activator.isFlagged_parseEnum hb)).bind fun o => .delivers target o _
    exact hparse s hs
  | summary a => exact (Flags.ask _).map _

theorem step_flags (step : Step) (he : ∀ e ∈ step.enumerations, e.IsApart) :
    Flags (Action.step step) := by
  cases step with
  | handle step => exact handleStep_flags step he
  | type step => exact typeStep_flags step
  | enumeration step => exact enumStep_flags step he
  | activator step => exact activatorStep_flags step he
  | list step => exact listStep_flags step he
  | queue step => exact queueStep_flags step he
  | set step => exact setStep_flags step he
  | dictionary step => exact dictionaryStep_flags step he

end Action

namespace Session

variable {s : Session}

theorem flagged_advance (hs : s.realm.Flagged) {step : Step}
    (he : ∀ e ∈ step.enumerations, e.IsApart) : (s.advance step).2.realm.Flagged :=
  Realm.flagged_releaseAll (Action.step_flags step he s hs) _

theorem flagged_advanceAll (hs : s.realm.Flagged) {steps : List Step}
    (he : ∀ step ∈ steps, ∀ e ∈ step.enumerations, e.IsApart) :
    (s.advanceAll steps).2.realm.Flagged := by
  induction steps generalizing s with
  | nil => exact hs
  | cons step steps ih =>
    obtain ⟨hstep, hsteps⟩ := List.forall_mem_cons.mp he
    exact ih (flagged_advance hs hstep) hsteps

theorem start_flagged : start.realm.Flagged := by
  refine ⟨fun i d hd hi => ?_, fun id c hc => ?_⟩
  · have hbound : ∀ p ∈ start.realm.registry.bound, p.1.isReserved = false → p.2.isEnum = true := by
      decide +kernel
    obtain ⟨before, after, hsplit, -⟩ := List.lookup_eq_some_iff.mp hd
    exact hbound (i, d) (by rw [hsplit]; simp) hi
  · obtain ⟨d, hd⟩ : ∃ d, start.realm.store = .empty d := ⟨_, rfl⟩
    rw [hd] at hc
    cases hc

/-- After steps that name no enumeration that is a type of objects, every enum value has a
descriptor that is flagged as one of an enumeration. -/
theorem run_flagged {steps : List Step}
    (he : ∀ step ∈ steps, ∀ e ∈ step.enumerations, e.IsApart) :
    (start.advanceAll steps).2.realm.Flagged :=
  flagged_advanceAll start_flagged he

end Session

end CountedObjects
