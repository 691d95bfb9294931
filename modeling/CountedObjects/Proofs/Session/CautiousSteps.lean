import CountedObjects.Proofs.Session.Caution
import CountedObjects.Proofs.Session.Run

/-! Steps do whatever may fail before they store anything. A few of them show in the end what they
have taken out of a collection or moved within it; they can only fail there if there is nothing
behind a handle that is shown. No step changes an activator but registrations. -/
namespace CountedObjects

/-- Whether a step shows something, or orders elements by what they show, when it has changed a
collection or an enumerator already. -/
def Step.showsLast : Step → Bool
  | .handle (.next ..) | .handle (.rest _) => true
  | .list (.removeAt ..) | .list (.sort ..) => true
  | .queue (.dequeue ..) | .queue (.tryDequeue ..) => true
  | .dictionary (.set ..) => true
  | _ => false

/-- The faults after which a step has only built objects. -/
def Step.Cancels (step : Step) (e : Fault) : Prop :=
  step.showsLast = true → e ≠ .abort .nullReference

/-- Whether a step changes the tables of an activator. -/
def Step.isRegistration : Step → Bool
  | .activator (.new ..) | .activator (.registerType ..) | .activator (.registerDefault ..)
  | .activator (.registerEnum ..) | .activator (.registerConstructor ..) => true
  | _ => false

namespace Action

open Session (Builds)

variable {α β : Type} {s : Session} {C : Fault → Prop}

/-! How the steps on collections begin. -/

theorem fromList_cautious {f : OpenSequence → Nat → Action β} (hs : s.Sound) (h : String)
    (hf : ∀ o id t, t.Sound → t.Opened h (some id) (.list o.element o.items) →
      Cautious C (f o id) t) :
    Cautious C (do let o ← openList h; f o (← demandId o.id)) s :=
  .bind (openList_ensures hs h) fun o t ht _ ho => .demandId fun id hid => hf o id t ht (hid ▸ ho)

theorem fromListAndElement_cautious {f : (o : OpenSequence) → o.element.Value → Nat → Action β}
    (hs : s.Sound) (h : String) (l : Literal)
    (hf : ∀ o x id t, Cautious C (f o x id) t) :
    Cautious C (do
      let o ← openList h
      let x ← l.element o.element
      f o x (← demandId o.id)) s :=
  .bind (openList_ensures hs h) fun o _ ht _ _ => .bind (element_ensures ht o.element l)
    fun x u _ _ _ => .demandId fun id _ => hf o x id u

theorem fromQueue_cautious {f : OpenSequence → Nat → Action β} (hs : s.Sound) (h : String)
    (hf : ∀ o id t, t.Sound → t.Opened h (some id) (.queue o.element o.items) →
      Cautious C (f o id) t) :
    Cautious C (do let o ← openQueue h; f o (← demandId o.id)) s :=
  .bind (openQueue_ensures hs h) fun o t ht _ ho => .demandId fun id hid => hf o id t ht (hid ▸ ho)

theorem fromSet_cautious {f : OpenSet → Nat → Action β} (hs : s.Sound) (h : String)
    (hf : ∀ o id t, t.Sound → t.store.AllSafe o → Cautious C (f o id) t) :
    Cautious C (do let o ← openSet h; f o (← demandId o.id)) s :=
  .bind (openSet_ensures hs h) fun o t ht _ ho => .demandId fun id _ =>
    hf o id t ht (Store.safeAll_hashSet.mp (ho.safeAll ht))

theorem fromSetAndElement_cautious {f : (o : OpenSet) → o.element.Value → Nat → Action β}
    (hs : s.Sound) (h : String) (l : Literal) (hf : ∀ o x id t, Cautious C (f o x id) t) :
    Cautious C (do
      let o ← openSet h
      let x ← l.element o.element
      f o x (← demandId o.id)) s :=
  .bind (openSet_ensures hs h) fun o _ ht _ _ => .bind (element_ensures ht o.element l)
    fun x u _ _ _ => .demandId fun id _ => hf o x id u

theorem fromSetAndSource_cautious {f : (o : OpenSet) → List o.element.Value → Nat → Action β}
    (hs : s.Sound) (h : String) (source : Source) (hf : ∀ o xs id t, Cautious C (f o xs id) t) :
    Cautious C (do
      let o ← openSet h
      let xs ← elementsOf o.element source
      f o xs (← demandId o.id)) s :=
  .bind (openSet_ensures hs h) fun o _ ht _ _ => .bind (elementsOf_ensures ht o.element source)
    fun xs u _ _ _ => .demandId fun id _ => hf o xs id u

theorem fromDictionary_cautious {f : OpenDictionary → Nat → Action β} (hs : s.Sound) (h : String)
    (hf : ∀ o id t, t.Sound → t.store.AllEntriesSafe o → Cautious C (f o id) t) :
    Cautious C (do let o ← openDictionary h; f o (← demandId o.id)) s :=
  .bind (openDictionary_ensures hs h) fun o t ht _ ho => .demandId fun id _ =>
    hf o id t ht (Store.safeAll_dictionary.mp (ho.safeAll ht))

theorem fromDictionaryAndKey_cautious {f : (o : OpenDictionary) → o.key.Value → Nat → Action β}
    (hs : s.Sound) (h : String) (l : Literal)
    (hf : ∀ o k id t, t.Sound → t.store.AllEntriesSafe o → Cautious C (f o k id) t) :
    Cautious C (do
      let o ← openDictionary h
      let k ← l.element o.key
      f o k (← demandId o.id)) s :=
  .bind (openDictionary_ensures hs h) fun o _ ht _ ho => .bind (element_ensures ht o.key l)
    fun k u hu hb _ => .demandId fun id _ =>
      hf o k id u hu (Store.safeAll_dictionary.mp ((ho.mono hb).safeAll hu))

theorem fromDictionaryAndEntry_cautious
    {f : (o : OpenDictionary) → o.key.Value → o.value.Value → Nat → Action β} (hs : s.Sound)
    (h : String) (k v : Literal)
    (hf : ∀ o key value id t, t.Sound → t.store.AllEntriesSafe o →
      Cautious C (f o key value id) t) :
    Cautious C (do
      let o ← openDictionary h
      let key ← k.element o.key
      let value ← v.element o.value
      f o key value (← demandId o.id)) s :=
  .bind (openDictionary_ensures hs h) fun o _ ht _ ho => .bind (element_ensures ht o.key k)
    fun key _ hu hb _ => .bind (element_ensures hu o.value v) fun value w hw hb' _ =>
      .demandId fun id _ => hf o key value id w hw
        (Store.safeAll_dictionary.mp (((ho.mono hb).mono hb').safeAll hw))

theorem listStep_cautious (hs : s.Sound) (step : ListStep)
    (hC : (Step.list step).showsLast = true → ¬ C (.abort .nullReference)) :
    Cautious C (listStep step) s := by
  cases step with
  | new h t ls =>
    apply Cautious.bind (Literal.elements_ensures hs t ls)
    intro xs _ _ _ _
    exact (Closes.new h _ _).cautious
  | add h l =>
    apply fromListAndElement_cautious hs h l
    intro o x id t
    exact .replaces id _ _
  | addObject h l =>
    apply Cautious.bind (openList_ensures hs h)
    intro o t ht _ _
    apply Cautious.bind (Literal.build_ensures ht l)
    intro y u hu _ _
    apply Cautious.demandId
    intro id _
    apply Cautious.convert hu
    intro x _
    exact .replaces id _ _
  | addRange h source =>
    apply Cautious.bind (openList_ensures hs h)
    intro o t ht _ _
    apply Cautious.bind (elementsOf_ensures ht o.element source)
    intro xs u _ _ _
    apply Cautious.demandId
    intro id _
    exact .replaces id _ _
  | get h i target =>
    apply fromList_cautious hs h
    intro o id t ht ho
    apply Cautious.ofResult
    intro x hx
    exact .deliversElement ht o.element (ho.safeAll_list ht x (Sequence.mem_of_get hx)) target _
  | removeAt h i target =>
    apply fromList_cautious hs h
    intro o id t ht ho
    apply Cautious.ofResult
    rintro ⟨x, xs⟩ hx
    exact (Closes.removes (hC rfl) _ _ _ _ target _).cautious
  | set h i l | insert h i l =>
    apply fromListAndElement_cautious hs h l
    intro o x id t
    apply Cautious.ofResult
    intro xs _
    exact .replaces id _ _
  | remove h l =>
    apply fromListAndElement_cautious hs h l
    intro o x id t
    apply Cautious.get
    split
    · exact .pure _
    · exact .replaces id _ _
  | contains h l | indexOf h l =>
    apply fromListAndElement_cautious hs h l
    intro o x id t
    exact .get (.pure _)
  | clear h =>
    apply fromList_cautious hs h
    intro o id t _ _
    exact .replaces id _ _
  | count h =>
    apply fromList_cautious hs h
    intro o id t _ _
    exact .pure _
  | toVec h =>
    apply fromList_cautious hs h
    intro o id t ht ho
    exact .of_builds ((showElements_ensures ht o.element (ho.safeAll_list ht)).map _)
  | sort h order =>
    apply fromList_cautious hs h
    intro o id t ht ho
    apply Cautious.get
    refine Closes.cautious ?_
    apply (Closes.replace id _).bind
    intro _
    apply (Closes.ofResult (hC rfl) (order.sort_shows t.store o.element o.items)).bind
    intro _
    exact (Closes.showElements (hC rfl) _ _).map _

theorem queueStep_cautious (hs : s.Sound) (step : QueueStep)
    (hC : (Step.queue step).showsLast = true → ¬ C (.abort .nullReference)) :
    Cautious C (queueStep step) s := by
  cases step with
  | new h t => exact (Closes.new h _ _).cautious
  | enqueue h l =>
    apply Cautious.bind (openQueue_ensures hs h)
    intro o t ht _ _
    apply Cautious.bind (element_ensures ht o.element l)
    intro x u _ _ _
    apply Cautious.demandId
    intro id _
    exact .replaces id _ _
  | dequeue h target =>
    apply fromQueue_cautious hs h
    intro o id t ht ho
    apply Cautious.ofResult
    rintro ⟨x, xs⟩ _
    exact (Closes.removes (hC rfl) _ _ _ _ target _).cautious
  | peek h target =>
    apply fromQueue_cautious hs h
    intro o id t ht ho
    apply Cautious.ofResult
    intro x hx
    exact .deliversElement ht o.element (ho.safeAll_queue ht x (Sequence.mem_of_peek hx)) target _
  | tryDequeue h target =>
    apply fromQueue_cautious hs h
    intro o id t ht ho
    split
    · exact .pure _
    · exact (Closes.removes (hC rfl) _ _ _ _ target fun v => Answer.optional (some v)).cautious
  | count h =>
    apply fromQueue_cautious hs h
    intro o id t _ _
    exact .pure _
  | clear h =>
    apply fromQueue_cautious hs h
    intro o id t _ _
    exact .replaces id _ _

theorem setStep_cautious (hs : s.Sound) (step : SetStep) : Cautious C (setStep step) s := by
  cases step with
  | new h t => exact (Closes.new h _ _).cautious
  | add h l =>
    apply fromSetAndElement_cautious hs h l
    intro o x id t
    exact .ask (.replaces id _ _)
  | contains h l =>
    apply fromSetAndElement_cautious hs h l
    intro o x id t
    exact .ask (.pure _)
  | remove h l =>
    apply fromSetAndElement_cautious hs h l
    intro o x id t
    exact .ask (.replaces id _ _)
  | union h source | intersect h source =>
    apply fromSetAndSource_cautious hs h source
    intro o xs id t
    exact .ask (.replaces id _ _)
  | count h =>
    apply fromSet_cautious hs h
    intro o id t _ _
    exact .pure _
  | clear h =>
    apply fromSet_cautious hs h
    intro o id t _ _
    exact .replaces id _ _
  | toVec h =>
    apply fromSet_cautious hs h
    intro o id t ht hc
    have hk : ∀ x ∈ o.slots.map Slot.key, t.store.SafeAll (o.element.owned x) :=
      List.forall_mem_map.mpr fun slot hm => (hc slot hm).1
    exact .of_builds ((showElements_ensures ht o.element hk).map _)

theorem showOptional_reads (o : Option Handle) :
    Reads (do return Answer.optional (← o.mapM view)) := by
  cases o with
  | none => exact (Reads.pure none).bind fun _ => .pure _
  | some h =>
    rw [Option.mapM_some, map_eq_pure_bind]
    exact ((Reads.query _).bind fun _ => .pure _).bind fun _ => .pure _

theorem dictionaryStep_cautious (hs : s.Sound) (step : DictionaryStep)
    (hC : (Step.dictionary step).showsLast = true → ¬ C (.abort .nullReference)) :
    Cautious C (dictionaryStep step) s := by
  cases step with
  | new h k v => exact (Closes.new h _ _).cautious
  | add h k v =>
    apply fromDictionaryAndEntry_cautious hs h k v
    intro o key value id t _ _
    apply Cautious.ask
    split
    · exact .query fun _ _ => .throw _
    · exact .replaces id _ _
  | set h k v =>
    apply fromDictionaryAndEntry_cautious hs h k v
    intro o key value id t ht hc
    apply Cautious.ask
    apply Cautious.bind (foundValue_ensures ht hc _ key)
    intro old u _ _ _
    refine Closes.cautious ?_
    apply (Closes.replace id _).bind
    intro _
    exact (Closes.mapOption fun o => .view (hC rfl) o).map _
  | get h k target =>
    apply fromDictionaryAndKey_cautious hs h k
    intro o key id t ht hc
    apply Cautious.ask
    split
    · next value hv => exact .deliversElement ht o.value (hc.get? hv) target _
    · exact .query fun _ _ => .throw _
  | tryGet h k =>
    apply fromDictionaryAndKey_cautious hs h k
    intro o key id t ht hc
    apply Cautious.ask
    apply Cautious.bind (foundValue_ensures ht hc _ key)
    intro value u _ _ _
    exact .reads (showOptional_reads value)
  | containsKey h k =>
    apply fromDictionaryAndKey_cautious hs h k
    intro o key id t _ _
    exact .ask (.pure _)
  | containsValue h v =>
    apply Cautious.bind (openDictionary_ensures hs h)
    intro o t ht _ _
    apply Cautious.bind (element_ensures ht o.value v)
    intro value u _ _ _
    apply Cautious.demandId
    intro id _
    exact .get (.pure _)
  | remove h k =>
    apply fromDictionaryAndKey_cautious hs h k
    intro o key id t _ _
    exact .ask (.replaces id _ _)
  | keys h =>
    apply fromDictionary_cautious hs h
    intro o id t ht hc
    have hk : ∀ x ∈ o.slots.map Slot.key, t.store.SafeAll (o.key.owned x) :=
      List.forall_mem_map.mpr fun slot hm => (hc slot hm).1
    exact .of_builds ((showElements_ensures ht o.key hk).map _)
  | values h =>
    apply fromDictionary_cautious hs h
    intro o id t ht hc
    have hv : ∀ x ∈ o.slots.map Slot.value, t.store.SafeAll (o.value.owned x) :=
      List.forall_mem_map.mpr fun slot hm => (hc slot hm).2
    exact .of_builds ((showElements_ensures ht o.value hv).map _)
  | count h =>
    apply fromDictionary_cautious hs h
    intro o id t _ _
    exact .pure _
  | clear h =>
    apply fromDictionary_cautious hs h
    intro o id t _ _
    exact .replaces id _ _

theorem handleStep_cautious (hs : s.Sound) (step : HandleStep)
    (hC : (Step.handle step).showsLast = true → ¬ C (.abort .nullReference)) :
    Cautious C (handleStep step) s := by
  cases step with
  | new h v => exact .bind (Literal.build_ensures hs v) fun o _ _ _ _ => .delivers o _ _
  | copy h source =>
    exact (Closes.change_return (fun s => s.setHandle h (s.handle source)) (fun _ => rfl)
      _).cautious
  | assign h source =>
    have hset : Closes C (change fun s => s.setHandle h (s.handle source)) := .change fun _ => rfl
    exact (hset.bind fun _ => (Closes.ask _).map _).cautious
  | reclaim h =>
    have hset : Closes C (change fun s => s.setHandle h (s.handle h)) := .change fun _ => rfl
    exact (hset.bind fun _ => (Closes.ask _).map _).cautious
  | take h source =>
    apply Cautious.ask
    refine ((Closes.obtain _).bind fun o => ?_).cautious
    exact .change_return (fun s => (s.clearHandle source).setHandle h o)
      (fun s => s.activators_clearHandle source) _
  | reset h => exact (Closes.change_return (·.setHandle h .null) (fun _ => rfl) _).cautious
  | drop h =>
    exact .ask (Closes.change_return (·.dropHandle h) (fun _ => rfl) _).cautious
  | refs h | isNull h | sameHandle a b | equals a b | keyEquals a b | isKind h k | downcast h k
  | keyHash h => exact .reads fun _ => rfl
  | «show» h | display h => exact .ask (.query fun _ _ => .pure _)
  | unbox h k => exact .ask (.convert hs fun _ _ => .pure _)
  | instanceOf h type => exact .ask (.ask (.query fun _ _ => .pure _))
  | dump h => exact .ask (.of_builds ((dump_ensures hs _ _).map _))
  | tryGet h | debug h =>
    apply Cautious.ask
    split
    · first | exact .throw _ | exact .pure _
    · exact .query fun _ _ => .pure _
  | text h => exact .ask (.query fun _ _ => .query fun _ _ => .pure _)
  | hash h => exact .ask (.bind_reads (hash_reads _) fun _ _ => .pure _)
  | type h => exact .ask (.query fun _ _ => .ask (.pure _))
  | equalsMethod a b => exact .ask (.query fun _ _ => .ask (.pure _))
  | hashEquals a b =>
    apply Cautious.ask
    apply Cautious.bind_reads (hash_reads _)
    intro _ _
    apply Cautious.ask
    exact .bind_reads (hash_reads _) fun _ _ => .pure _
  | tryCast h k target | cast h k target =>
    exact .ask (.convert hs fun o _ => .delivers o target _)
  | fromObject h t target =>
    apply Cautious.ask
    apply Cautious.convert hs
    intro v hv
    have hsafe : s.store.SafeAll (t.owned v) :=
      fun x hx => t.owned_ofObject v hv x hx ▸ hs.safe_handle h
    exact .deliversElement hs t hsafe target _
  | fromOption h t =>
    apply Cautious.ask
    apply Cautious.convert hs
    intro o hv
    cases o with
    | none => exact .pure _
    | some v =>
      have hsafe : s.store.SafeAll (t.owned v) :=
        fun x hx => (ElementType.option t).owned_ofObject (some v) hv x hx ▸ hs.safe_handle h
      exact .bind (toObject_ensures hs t v hsafe) fun _ _ _ _ _ => .query fun _ _ => .pure _
  | parts h key value =>
    apply Cautious.ask
    apply Cautious.convert hs
    intro o _
    apply Cautious.ask
    split
    · next k v hb =>
      obtain ⟨hsk, hsv⟩ := Store.safeAll_pair.mp (hs.safeAll_body hb)
      apply Cautious.bind (share_ensures hs hsk)
      intro k t ht hst _
      apply Cautious.bind (share_ensures ht (hst.store.safe hsv))
      intro v u _ _ _
      apply Cautious.query
      intro vs _
      have hvalue : Closes C (do storeAs value v; return Answer.objects vs) :=
        (Closes.storeAs value v).bind fun _ => .pure _
      exact ((Closes.storeAs key k).bind fun _ => hvalue).cautious
    · exact .throw _
  | enumerate h =>
    apply Cautious.ask
    apply Cautious.bind (enumerate_ensures hs _)
    intro o t _ _ _
    cases o with
    | none => exact .pure _
    | some hs =>
      apply Cautious.bind_reads (isUnordered_reads _)
      intro _ _
      exact .bind_reads (listed_reads _ _) fun _ _ => .pure _
  | count h => exact .ask (.query fun _ _ => .ask (.pure _))
  | openEnumerator h e =>
    apply Cautious.get
    split
    · exact .sets rfl (.pure _)
    · next t ht =>
      obtain ⟨c, -, rfl⟩ := Option.map_eq_some_iff.mp ht
      exact .sets rfl (.pure _)
  | snapshot e vs =>
    apply Cautious.bind (Literal.buildAll_ensures hs vs)
    intro xs t _ _ _
    exact (Closes.change_return (fun s => (s.mapRealm (·.shareAll xs)).setEnumerator e ⟨xs, false⟩)
      (fun _ => rfl) _).cautious
  | next e target =>
    apply Cautious.get
    split
    · exact .pure _
    · next o t ht =>
      refine .sets (Session.activators_takeNext? ht) ?_
      exact (Closes.deliver (hC rfl) target o).map fun v => Answer.optional (some v)
  | rest e =>
    apply Cautious.get
    split
    · exact .pure _
    · next x t ht =>
      refine .sets (Session.activators_takeRest? ht) ?_
      exact (Closes.listed (hC rfl) _ _).map _

theorem typeStep_cautious (step : TypeStep) : Cautious C (typeStep step) s := by
  cases step with
  | new target id space name revisions => exact .get (.sets rfl (.pure _))
  | info type | name type n | ordinal type name =>
    exact .bind_reads (demandType_reads _) fun _ _ => .pure _
  | base type =>
    apply Cautious.bind_reads (demandType_reads _)
    intro d _
    split
    · exact .pure _
    · exact .ask (.pure _)
  | subclass type of | assignable type of =>
    exact .bind_reads (demandType_reads _) fun _ _ => .bind_reads (demandType_reads _) fun _ _ =>
      .ofResult fun _ _ => .pure _
  | compare type of =>
    exact .bind_reads (demandType_reads _) fun _ _ => .bind_reads (demandType_reads _) fun _ _ =>
      .ask (.pure _)
  | lookup type =>
    apply Cautious.bind_reads (demandType_reads _)
    intro d _
    apply Cautious.ask
    split
    · exact .pure _
    · exact .ask (.pure _)

theorem enumStep_cautious (hs : s.Sound) (step : EnumStep) : Cautious C (enumStep step) s := by
  cases step with
  | unbox h e =>
    apply Cautious.ask
    split
    · exact .throw _
    · exact .bind (enumType_ensures hs e) fun _ _ _ _ _ => .query fun _ _ => .pure _
  | member h e =>
    apply Cautious.bind (demandEnumValue_ensures hs h)
    intro p t ht _ _
    exact .bind (enumType_ensures ht e) fun _ _ _ _ _ => .ofObject fun _ _ => .pure _
  | ofOrdinal e n =>
    simp only [enumStep]
    split
    · exact .pure _
    · next m _ =>
      apply Cautious.bind (enumType_ensures hs e)
      intro d t ht _ _
      have hb : (Body.enumValue d m.2).IsEmpty := ⟨rfl, trivial⟩
      exact .bind (make_ensures_of_isEmpty ht hb) fun _ _ _ _ _ => .query fun _ _ => .pure _
  | parts h => exact .bind (demandEnumValue_ensures hs h) fun _ _ _ _ _ => .pure _

theorem activatorStep_cautious (hs : s.Sound) (step : ActivatorStep)
    (hr : (Step.activator step).isRegistration = false) : Cautious C (activatorStep step) s := by
  cases step with
  | new a o | registerType a type | registerDefault a k | registerEnum a e
  | registerConstructor a type parameters b => cases hr
  | getType a name => exact .ask (.ofObject fun _ _ => .ask (.pure _))
  | constructors a type => exact .ask (.ofResult fun _ _ => .ask (.pure _))
  | admits a type i arguments derived =>
    exact .bind (Literal.buildAll_ensures hs arguments) fun _ _ _ _ _ =>
      .bind_reads (constructorAt_reads a type i) fun _ _ => .query fun _ _ => .pure _
  | invoke a type i arguments =>
    apply Cautious.bind (Literal.buildAll_ensures hs arguments)
    intro xs t ht _ hxs
    apply Cautious.bind_reads (constructorAt_reads a type i)
    intro c _
    have hg := c.invoke_gives (r := t.realm) ht (ht.safeAll_of_holds hxs)
    exact .bind (attempt_ensures hg) fun _ _ _ _ _ => .query fun _ _ => .pure _
  | create a type arguments target =>
    apply Cautious.bind (Literal.buildAll_ensures hs arguments)
    intro xs t ht _ hxs
    apply Cautious.get
    have hg := Activator.create_gives (r := t.realm) ht (ht.safeAll_of_holds hxs) (t.activator a)
      (t.type type)
    exact .bind (attempt_ensures hg) fun o _ _ _ _ => .delivers o target _
  | createByName a name arguments target =>
    apply Cautious.bind (Literal.buildAll_ensures hs arguments)
    intro xs t ht _ hxs
    apply Cautious.get
    have hg := Activator.createByName_gives (r := t.realm) ht (ht.safeAll_of_holds hxs)
      (t.activator a) name
    exact .bind (attempt_ensures hg) fun o _ _ _ _ => .delivers o target _
  | parseEnum a name text target =>
    apply Cautious.ask
    apply Cautious.ofObject
    intro b hb
    exact .bind (make_ensures_of_isEmpty hs (Activator.isEmpty_parseEnum hb)) fun o _ _ _ _ =>
      .delivers o target _
  | summary a => exact .reads fun _ => rfl

theorem step_cautious (hs : s.Sound) {step : Step} (hr : step.isRegistration = false) :
    Cautious step.Cancels (Action.step step) s := by
  have hC : step.showsLast = true → ¬ step.Cancels (.abort .nullReference) :=
    fun h hc => hc h rfl
  cases step with
  | handle step => exact handleStep_cautious hs step hC
  | type step => exact typeStep_cautious step
  | enumeration step => exact enumStep_cautious hs step
  | activator step => exact activatorStep_cautious hs step hr
  | list step => exact listStep_cautious hs step hC
  | queue step => exact queueStep_cautious hs step hC
  | set step => exact setStep_cautious hs step
  | dictionary step => exact dictionaryStep_cautious hs step hC

end Action

end CountedObjects
