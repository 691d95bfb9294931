import CountedObjects.Proofs.Session.Dictionaries
import CountedObjects.Proofs.Session.HashSets

/-! Histories of hash sets and dictionaries. Each step of a session is a list of edits of each
table, and what a table holds after any steps is what its edits have left. -/
namespace CountedObjects

/-- The types of what a table holds. -/
inductive TableType
  | hashSet (t : ElementType)
  | dictionary (k v : ElementType)

namespace TableType

@[reducible] def key : TableType → ElementType
  | hashSet t => t
  | dictionary k _ => k

@[reducible] def Value : TableType → Type
  | hashSet _ => Unit
  | dictionary _ v => v.Value

def contents : (τ : TableType) → List (Slot τ.key.Value τ.Value) → Contents
  | hashSet t, ss => .hashSet t ss
  | dictionary k v, ss => .dictionary k v ss

variable {s : Store} {τ : TableType}

theorem kind_contents (τ : TableType) (ss ss' : List (Slot τ.key.Value τ.Value)) :
    (τ.contents ss).kind = (τ.contents ss').kind := by
  cases τ <;> rfl

theorem contents_of_kind (τ : TableType) {c : Contents} {ss : List (Slot τ.key.Value τ.Value)}
    (h : (τ.contents ss).kind = c.kind) : ∃ ss', c = τ.contents ss' := by
  cases τ with
  | hashSet t =>
    cases c with
    | hashSet t' ss' =>
      cases h
      exact ⟨ss', rfl⟩
    | _ => cases h
  | dictionary k v =>
    cases c with
    | dictionary k' v' ss' =>
      cases h
      exact ⟨ss', rfl⟩
    | _ => cases h

theorem contents_inj (τ : TableType) {ss ss' : List (Slot τ.key.Value τ.Value)}
    (h : τ.contents ss = τ.contents ss') : ss = ss' := by
  cases τ <;> cases h <;> rfl

theorem safe_keys (τ : TableType) {ss : List (Slot τ.key.Value τ.Value)}
    (hs : s.SafeAll (τ.contents ss).owned) : ∀ e ∈ ss, s.SafeAll (τ.key.owned e.key) := by
  cases τ with
  | hashSet t => exact fun e he => (Store.safeAll_hashSet.mp hs e he).1
  | dictionary k v => exact fun e he => (Store.safeAll_dictionary.mp hs e he).1

end TableType

/-! What steps are given. -/

/-- The result of an action, if it succeeds. -/
def Action.given {α : Type} (a : Action α) (s : Session) : List α := (a s).1.toOption.toList

def Literal.keyEntry (t : ElementType) (l : Literal) : Action (Entry t.Value Unit) := do
  let x ← l.element t
  Action.ask fun s => .ofKey (t.mark s.store) x

def Literal.entry (kt vt : ElementType) (k v : Literal) : Action (Entry kt.Value vt.Value) := do
  let key ← k.element kt
  let value ← v.element vt
  Action.ask fun s => ⟨kt.mark s.store key, key, value⟩

def Source.keyEntries (t : ElementType) (source : Source) : Action (List (Entry t.Value Unit)) := do
  let xs ← Action.elementsOf t source
  Action.ask fun s => xs.map (.ofKey (t.mark s.store))

/-- What a step does to the set that its name points to. An argument that cannot be built leaves
the set as it is. -/
def SetStep.edits (s : Session) (t : ElementType) : SetStep → List (Edit t.Value Unit)
  | add _ l => ((l.keyEntry t).given s).map .put
  | remove _ l => ((l.keyEntry t).given s).map fun e => .erase e.mark
  | union _ source => ((source.keyEntries t).given s).flatMap fun es => es.map .put
  | intersect _ source => ((source.keyEntries t).given s).map fun es => .retain (es.map Entry.mark)
  | clear _ => [.clear]
  | new .. | contains .. | count .. | toVec .. => []

/-- What a step does to the dictionary that its name points to. To add a key is to put it if it
succeeds. -/
def DictionaryStep.edits (s : Session) (kt vt : ElementType) :
    DictionaryStep → List (Edit kt.Value vt.Value)
  | add h k v =>
    if (Action.dictionaryStep (.add h k v) s).1.isOk then ((k.entry kt vt v).given s).map .put
    else []
  | set _ k v => ((k.entry kt vt v).given s).map .put
  | remove _ k => ((k.keyEntry kt).given s).map fun e => .erase e.mark
  | clear _ => [.clear]
  | new .. | get .. | tryGet .. | containsKey .. | containsValue .. | keys .. | values ..
  | count .. => []

/-- The name of the table that a step changes. -/
def Step.changes? : Step → Option String
  | .set step => step.changes?
  | .dictionary step => step.changes?
  | _ => none

/-- What a step does to the table with a number. -/
def Step.edits (s : Session) (id : Nat) (τ : TableType) (step : Step) :
    List (Edit τ.key.Value τ.Value) :=
  if step.changes?.map s.handle = some (.object id) then
    match τ, step with
    | .hashSet t, .set step => step.edits s t
    | .dictionary k v, .dictionary step => step.edits s k v
    | _, _ => []
  else []

namespace Session

/-- What some steps do to the table with a number, one after the other. -/
def edits (id : Nat) (τ : TableType) : Session → List Step → List (Edit τ.key.Value τ.Value)
  | _, [] => []
  | s, step :: steps => step.edits s id τ ++ edits id τ (s.advance step).2 steps

/-- The object with a number is a table with the entries. -/
def Tabulates (s : Session) (id : Nat) (τ : TableType) (es : List (Entry τ.key.Value τ.Value)) :
    Prop :=
  ∃ ss, s.store.contents? (.object id) = some (τ.contents ss) ∧ s.store.Keyed τ.key ss ∧
    s.store.entries τ.key ss = es

/-- The key of an entry was given its mark in a state before this one, in which it lived, and there
it was equal to itself where its mark is. -/
def Marked (s : Session) (τ : TableType) (e : Entry τ.key.Value τ.Value) : Prop :=
  ∃ u : Session, u.store.Precedes s.store ∧ u.Sound ∧ u.store.SafeAll (τ.key.owned e.key) ∧
    e.mark = τ.key.mark u.store e.key ∧ τ.key.same u.store e.key e.key = e.mark.same e.mark

/-- The object with a number is a table that edits have made out of an empty one. -/
structure Records (s : Session) (id : Nat) (τ : TableType)
    (edits : List (Edit τ.key.Value τ.Value)) : Prop where
  tabulates : s.Tabulates id τ (Edit.applyAll [] edits)
  marked : ∀ e, .put e ∈ edits → s.Marked τ e

/-- How a step on a table ends: it leaves the table as it is, or the table has the entries that the
edits leave. -/
inductive Edited (s : Session) (id : Nat) (τ : TableType) (ss : List (Slot τ.key.Value τ.Value))
    (step : Step) (edits : List (Edit τ.key.Value τ.Value)) : Prop
  | kept (r : Result Answer) (u : Session) (none : edits = []) (sound : u.Sound)
    (builds : s.Builds u) (ends : Action.step step s = (r, u))
  | changed (r : Result Answer) (u : Session) (ss' : List (Slot τ.key.Value τ.Value))
    (sound : u.Sound) (builds : s.Builds u) (keyed : u.store.Keyed τ.key ss')
    (safe : u.store.SafeAll (τ.contents ss').owned)
    (entries : u.store.entries τ.key ss' = Edit.applyAll (u.store.entries τ.key ss) edits)
    (marked : ∀ e, .put e ∈ edits → u.Marked τ e)
    (ends : Action.step step s = (r, u.mapRealm (·.replace id (τ.contents ss'))))

variable {s u : Session} {h : String} {id : Nat} {τ : TableType}
  {ss ss' : List (Slot τ.key.Value τ.Value)}

theorem Opened.tabulates_endStep (ho : u.Opened h (some id) (τ.contents ss)) (hu : u.Sound)
    (hk : u.store.Keyed τ.key ss) : u.endStep.Tabulates id τ (u.store.entries τ.key ss) := by
  have hc := ho.contents?_endStep hu
  have ht : u.endStep.Sound := endStep_sound hu
  have hsafe := τ.safe_keys (ht.safeAll_contents hc)
  exact ⟨ss, hc, hk.of_precedes u.precedes_endStep hu ht hsafe⟩

theorem Opened.tabulates_replace_endStep (ho : u.Opened h (some id) (τ.contents ss)) (hu : u.Sound)
    (hk : u.store.Keyed τ.key ss') (hx : u.store.SafeAll (τ.contents ss').owned) :
    (u.mapRealm (·.replace id (τ.contents ss'))).endStep.Tabulates id τ
      (u.store.entries τ.key ss') := by
  have hc := ho.contents?_replace_endStep hu (τ.kind_contents ss ss') hx
  have ht := endStep_sound (s := u.mapRealm (·.replace id (τ.contents ss')))
    (Store.Sound.replace hu hx id)
  have hsafe := τ.safe_keys (ht.safeAll_contents hc)
  have hp := (u.precedes_replace id (τ.contents ss')).trans (precedes_endStep _)
  exact ⟨ss', hc, hk.of_precedes hp hu ht hsafe⟩

theorem Marked.mono {e : Entry τ.key.Value τ.Value} (h : s.Marked τ e)
    (hst : s.store.Precedes u.store) : u.Marked τ e := by
  obtain ⟨w, hp, hmarked⟩ := h
  exact ⟨w, hp.trans hst, hmarked⟩

theorem Sound.marked {e : Entry τ.key.Value τ.Value} (hs : s.Sound)
    (hsafe : s.store.SafeAll (τ.key.owned e.key)) (he : e.mark = τ.key.mark s.store e.key) :
    s.Marked τ e :=
  ⟨s, .refl _, hs, hsafe, he, he ▸ τ.key.same_eq_mark hs hsafe hsafe⟩

/-- A key that lives has the mark that it was given. -/
theorem Marked.mark_eq {e : Entry τ.key.Value τ.Value} (h : s.Marked τ e) (hs : s.Sound)
    (hsafe : s.store.SafeAll (τ.key.owned e.key)) : τ.key.mark s.store e.key = e.mark := by
  obtain ⟨u, hp, hu, hsafe', hmark, -⟩ := h
  rw [hmark]
  exact τ.key.mark_eq_of_precedes hp hu hs e.key hsafe' hsafe

namespace Edited

variable {step : Step} {edits : List (Edit τ.key.Value τ.Value)}

theorem tabulates (h' : s.Edited id τ ss step edits) (hs : s.Sound)
    (ho : s.Opened h (some id) (τ.contents ss)) (hk : s.store.Keyed τ.key ss) :
    (s.advance step).2.Tabulates id τ (Edit.applyAll (s.store.entries τ.key ss) edits) := by
  cases h' with
  | kept r u none sound builds ends =>
    obtain ⟨hk', he⟩ := hk.of_grows builds.store hs sound
    rw [advance_eq_endStep step ends, none, ← he]
    exact (ho.mono builds).tabulates_endStep sound hk'
  | changed r u ss' sound builds keyed safe entries marked ends =>
    rw [advance_eq_endStep step ends, ← (hk.of_grows builds.store hs sound).2, ← entries]
    exact (ho.mono builds).tabulates_replace_endStep sound keyed safe

theorem marked {e : Entry τ.key.Value τ.Value} (h : s.Edited id τ ss step edits)
    (he : .put e ∈ edits) : (s.advance step).2.Marked τ e := by
  cases h with
  | kept r u none =>
    rw [none] at he
    cases he
  | changed r u ss' sound builds keyed safe entries marked ends =>
    rw [advance_eq_endStep step ends]
    exact (marked e he).mono ((u.precedes_replace ..).trans (precedes_endStep _))

end Edited

end Session

namespace Action

variable {α β : Type} {a : Action α} {s u : Session} {x : α} {e : Fault}

theorem given_of_ok (h : a s = (.ok x, u)) : a.given s = [x] := by rw [given, h]; rfl

theorem given_of_error (h : a s = (.error e, u)) : a.given s = [] := by rw [given, h]; rfl

theorem given_ask_of_ok (h : a s = (.ok x, u)) (f : α → Session → β) :
    (do let x ← a; ask (f x) : Action β).given s = [f x u] :=
  given_of_ok (bind_ok h _)

theorem given_ask_of_error (h : a s = (.error e, u)) (f : α → Action β) :
    (do let x ← a; f x : Action β).given s = [] :=
  given_of_error (bind_error h _)

end Action

namespace Session

open Edit (applyAll)

variable {s u : Session} {h : String} {id : Nat}

section

variable {t : ElementType} {ss ss' : List (Slot t.Value Unit)} {step : SetStep} {r : Result Answer}

/-- A step on a set edits the set that its name points to. -/
theorem Sound.edited_setStep (hs : s.Sound) (ho : s.Opened h (some id) (.hashSet t ss))
    (hk : s.store.Keyed t ss) (hc : step.changes? = some h) :
    s.Edited id (.hashSet t) ss (.set step) (step.edits s t) := by
  have keyed : ∀ {u}, u.Sound → s.Builds u → u.store.Keyed t ss :=
    fun hu hb => (hk.of_grows hb.store hs hu).1
  have safe : ∀ {u : Session} {ss' : List (Slot t.Value Unit)}, u.store.Keyed t ss' →
      u.store.SafeAll (Contents.hashSet t ss').owned :=
    fun hk => Store.safeAll_hashSet.mpr fun e he => ⟨(hk e he).key, trivial⟩
  cases step with
  | add _ l =>
    cases hc
    rw [SetStep.edits, Literal.keyEntry]
    rcases (Action.element_ensures hs t l).error_or_ok with
      ⟨e, u, hx, hu, hb⟩ | ⟨x, u, hx, hu, hb, hsafe⟩
    · rw [Action.given_ask_of_error hx]
      exact .kept _ u rfl hu hb (Action.argument_run_error (Action.openSet_run ho) hx _)
    · have hk' := (keyed hu hb).insert hsafe ()
      rw [Action.given_ask_of_ok hx, List.map_singleton]
      refine .changed _ u _ hu hb hk' (safe hk')
        (Table.entries_insert (t.keying_marks hu) (keyed hu hb) hsafe ()) (fun e he => ?_)
        (Action.setStep_add_run ho hx)
      cases List.mem_singleton.mp he
      exact hu.marked (τ := .hashSet t) hsafe rfl
  | remove _ l =>
    cases hc
    rw [SetStep.edits, Literal.keyEntry]
    rcases (Action.element_ensures hs t l).error_or_ok with
      ⟨e, u, hx, hu, hb⟩ | ⟨x, u, hx, hu, hb, hsafe⟩
    · rw [Action.given_ask_of_error hx]
      exact .kept _ u rfl hu hb (Action.argument_run_error (Action.openSet_run ho) hx _)
    · have hk' := (keyed hu hb).erase x
      rw [Action.given_ask_of_ok hx, List.map_singleton]
      refine .changed _ u _ hu hb hk' (safe hk')
        (Table.entries_erase (t.keying_marks hu) (keyed hu hb) hsafe) (fun e he => ?_)
        (Action.setStep_remove_run ho hx)
      cases List.mem_singleton.mp he
  | union _ source =>
    cases hc
    rw [SetStep.edits, Source.keyEntries]
    rcases (Action.elementsOf_ensures hs t source).error_or_ok with
      ⟨e, u, hx, hu, hb⟩ | ⟨xs, u, hx, hu, hb, hsafe⟩
    · rw [Action.given_ask_of_error hx]
      exact .kept _ u rfl hu hb (Action.argument_run_error (Action.openSet_run ho) hx _)
    · have hk' := (keyed hu hb).insertAll hsafe
      rw [Action.given_ask_of_ok hx, List.flatMap_singleton]
      refine .changed _ u _ hu hb hk' (safe hk')
        (Table.entries_insertAll (t.keying_marks hu) (keyed hu hb) hsafe) (fun e he => ?_)
        (Action.setStep_union_run ho hx)
      obtain ⟨e', he', heq⟩ := List.mem_map.mp he
      obtain ⟨x, hm, rfl⟩ := List.mem_map.mp he'
      cases heq
      exact hu.marked (τ := .hashSet t) (hsafe x hm) rfl
  | intersect _ source =>
    cases hc
    rw [SetStep.edits, Source.keyEntries]
    rcases (Action.elementsOf_ensures hs t source).error_or_ok with
      ⟨e, u, hx, hu, hb⟩ | ⟨xs, u, hx, hu, hb, hsafe⟩
    · rw [Action.given_ask_of_error hx]
      exact .kept _ u rfl hu hb (Action.argument_run_error (Action.openSet_run ho) hx _)
    · have hk' := (keyed hu hb).retain xs
      have hmarks : (xs.map (.ofKey (t.mark u.store))).map Entry.mark = xs.map (t.mark u.store) :=
        List.map_map
      rw [Action.given_ask_of_ok hx, List.map_singleton, hmarks]
      refine .changed _ u _ hu hb hk' (safe hk')
        (Table.entries_retain (t.keying_marks hu) (keyed hu hb) hsafe) (fun e he => ?_)
        (Action.setStep_intersect_run ho hx)
      cases List.mem_singleton.mp he
  | clear _ =>
    cases hc
    refine .changed _ s [] hs (.refl s) Table.keyed_nil (safe Table.keyed_nil) rfl (fun e he => ?_)
      (Action.setStep_clear_run ho)
    cases List.mem_singleton.mp he
  | new | contains | count | toVec => cases hc

end

section

variable {kt vt : ElementType} {ss : List (Slot kt.Value vt.Value)} {step : DictionaryStep}

/-- A key and a value may be built or not. -/
theorem Sound.entry_error_or_ok (hs : s.Sound) (ho : s.Opened h (some id) (.dictionary kt vt ss))
    (k v : Literal) :
    (∃ e u, u.Sound ∧ s.Builds u ∧
      (∀ {β : Type} (g : kt.Value → vt.Value → Action β),
        (do g (← k.element kt) (← v.element vt)) s = (.error e, u)) ∧
      ∀ f : (o : OpenDictionary) → o.key.Value → o.value.Value → Action Answer,
        (do
          let o ← Action.openDictionary h
          let key ← k.element o.key
          let value ← v.element o.value
          f o key value) s = (.error e, u)) ∨
      ∃ key u' value u, k.element kt s = (.ok key, u') ∧ v.element vt u' = (.ok value, u) ∧
        u.Sound ∧ s.Builds u ∧ u.store.SafeAll (kt.owned key) ∧
          u.store.SafeAll (vt.owned value) := by
  rcases (Action.element_ensures hs kt k).error_or_ok with
    ⟨e, u, hk, hu, hb⟩ | ⟨key, u', hk, hu', hb', hsafe⟩
  · exact .inl ⟨e, u, hu, hb, fun g => Action.bind_error hk _,
      fun f => Action.argument_run_error (Action.openDictionary_run ho) hk _⟩
  · rcases (Action.element_ensures hu' vt v).error_or_ok with
      ⟨e, u, hv, hu, hb⟩ | ⟨value, u, hv, hu, hb, hsafe'⟩
    · exact .inl ⟨e, u, hu, hb'.trans hb,
        fun g => (Action.bind_ok hk _).trans (Action.bind_error hv _),
        fun f => Action.entry_run_error ho hk hv f⟩
    · exact .inr ⟨key, u', value, u, hk, hv, hu, hb'.trans hb,
        fun x hx => hb.store.safe (hsafe x hx), hsafe'⟩

theorem given_entry {k v : Literal} {u' : Session} {key : kt.Value} {value : vt.Value}
    (hk : k.element kt s = (.ok key, u')) (hv : v.element vt u' = (.ok value, u)) :
    (k.entry kt vt v).given s = [⟨kt.mark u.store key, key, value⟩] :=
  Action.given_of_ok ((Action.bind_ok hk _).trans (Action.bind_ok hv _))

/-- A step on a dictionary edits the dictionary that its name points to. -/
theorem Sound.edited_dictionaryStep (hs : s.Sound)
    (ho : s.Opened h (some id) (.dictionary kt vt ss)) (hk : s.store.Keyed kt ss)
    (hc : step.changes? = some h) :
    s.Edited id (.dictionary kt vt) ss (.dictionary step) (step.edits s kt vt) := by
  have keyed : ∀ {u}, u.Sound → s.Builds u → u.store.Keyed kt ss :=
    fun hu hb => (hk.of_grows hb.store hs hu).1
  have all : ∀ {u}, u.Sound → s.Builds u → Table.All (fun x => u.store.SafeAll (kt.owned x))
      (fun x => u.store.SafeAll (vt.owned x)) ss :=
    fun hu hb => Store.safeAll_dictionary.mp (hu.safeAll_contents (ho.mono hb).2)
  -- What is put may lead to further objects before the dictionary gets it.
  have inserted : ∀ {u w r key value}, u.Sound → s.Builds u → u.store.SafeAll (kt.owned key) →
      u.store.SafeAll (vt.owned value) → w.Sound → u.Builds w →
        Action.dictionaryStep step s = (r, w.mapRealm (·.replace id
          (.dictionary kt vt (Table.insert (kt.keying u.store) key value ss)))) →
            s.Edited id (.dictionary kt vt) ss (.dictionary step)
              [.put ⟨kt.mark u.store key, key, value⟩] := by
    intro u w r key value hu hb hkey hvalue hw hb' hrun
    have hku : u.store.Keyed kt (Table.insert (kt.keying u.store) key value ss) :=
      (keyed hu hb).insert hkey value
    obtain ⟨hkw, he⟩ := hku.of_grows hb'.store hu hw
    have hold := ((keyed hu hb).of_grows hb'.store hu hw).2
    have hsafe := Store.safeAll_dictionary.mpr ((all hu hb).insert (kt.keying u.store) hkey hvalue)
    have hentries := Table.entries_insert (kt.keying_marks hu) (keyed hu hb) hkey value
    refine .changed r w _ hw (hb.trans hb') hkw (fun x hx => hb'.store.safe (hsafe x hx))
      (he.trans (hentries.trans ?_)) (fun e hm => ?_) hrun
    · exact congrArg (Entry.put _) hold.symm
    · cases List.mem_singleton.mp hm
      exact (hu.marked (τ := .dictionary kt vt) hkey rfl).mono hb'.store.toPrecedes
  cases step with
  | add _ k v =>
    cases hc
    rcases hs.entry_error_or_ok ho k v with
      ⟨e, u, hu, hb, hentry, hrun⟩ | ⟨key, u', value, u, hkey, hv, hu, hb, hsafe, hsafe'⟩
    · rw [DictionaryStep.edits, Literal.entry, Action.given_of_error (hentry _), List.map_nil,
        ite_self]
      exact .kept _ u rfl hu hb (hrun _)
    · cases hcontains : Table.contains (kt.keying u.store) key ss with
      | true =>
        have hrun := Action.dictionaryStep_add_run_of_contains ho hkey hv hcontains
        rw [DictionaryStep.edits, hrun, if_neg (Action.not_isOk_bind_error _ _)]
        exact .kept _ u rfl hu hb hrun
      | false =>
        have hrun := Action.dictionaryStep_add_run ho hkey hv hcontains
        have hok : (.ok .nothing : Result Answer).isOk = true := rfl
        rw [DictionaryStep.edits, hrun, if_pos hok, given_entry hkey hv, List.map_singleton]
        exact inserted hu hb hsafe hsafe' hu (.refl u) hrun
  | set _ k v =>
    cases hc
    rcases hs.entry_error_or_ok ho k v with
      ⟨e, u, hu, hb, hentry, hrun⟩ | ⟨key, u', value, u, hkey, hv, hu, hb, hsafe, hsafe'⟩
    · rw [DictionaryStep.edits, Literal.entry, Action.given_of_error (hentry _), List.map_nil]
      exact .kept _ u rfl hu hb (hrun _)
    · obtain ⟨old, w, hold, hw, hb', -⟩ := hu.foundValue (ho.mono hb) (kt.keying u.store) key
      rw [DictionaryStep.edits, given_entry hkey hv, List.map_singleton]
      exact inserted hu hb hsafe hsafe' hw hb' (Action.dictionaryStep_set_run ho hkey hv hold)
  | remove _ k =>
    cases hc
    rw [DictionaryStep.edits, Literal.keyEntry]
    rcases (Action.element_ensures hs kt k).error_or_ok with
      ⟨e, u, hkey, hu, hb⟩ | ⟨key, u, hkey, hu, hb, hsafe⟩
    · rw [Action.given_ask_of_error hkey]
      exact .kept _ u rfl hu hb (Action.argument_run_error (Action.openDictionary_run ho) hkey _)
    · have hx := Store.safeAll_dictionary.mpr ((all hu hb).erase (kt.keying u.store) key)
      rw [Action.given_ask_of_ok hkey, List.map_singleton]
      refine .changed _ u _ hu hb ((keyed hu hb).erase key) hx
        (Table.entries_erase (kt.keying_marks hu) (keyed hu hb) hsafe) (fun e he => ?_)
        (Action.dictionaryStep_remove_run ho hkey)
      cases List.mem_singleton.mp he
  | clear _ =>
    cases hc
    refine .changed _ s [] hs (.refl s) Table.keyed_nil s.store.safeAll_nil rfl (fun e he => ?_)
      (Action.dictionaryStep_clear_run ho)
    cases List.mem_singleton.mp he
  | new | get | tryGet | containsKey | containsValue | keys | values | count => cases hc

end

/-! What a whole step does, and a run. -/

variable {τ : TableType} {ss : List (Slot τ.key.Value τ.Value)}
  {es : List (Entry τ.key.Value τ.Value)}

/-- Only the table that a step changes is in its scope. -/
theorem changes_of_scope {step : Step}
    (hw : (step.scope s).objects id (.collection (τ.contents ss))) :
    step.changes?.map s.handle = some (.object id) := by
  cases step with
  | set step => exact hw.1
  | dictionary step => exact hw.1
  | list step =>
    obtain ⟨-, t, xs, hb⟩ := hw
    cases τ <;> cases hb
  | queue step =>
    obtain ⟨-, t, xs, hb⟩ := hw
    cases τ <;> cases hb
  | handle | type | enumeration | activator => exact hw.elim

theorem Settled.tabulates_of_not_scope (hs : s.Settled) {step : Step} (h : s.Tabulates id τ es)
    (ht : (s.advance step).2.store.contents? (.object id) = some (τ.contents ss))
    (hn : ¬ (step.scope s).objects id (.collection (τ.contents ss))) :
    (s.advance step).2.Tabulates id τ es := by
  obtain ⟨ss', hc, hk, rfl⟩ := h
  obtain ⟨hsettled, hp⟩ := advance_settled hs step
  rw [hs.sound.contents?_eq_of_not_scope hc ht hn] at ht
  have hsafe := τ.safe_keys (hsettled.sound.safeAll_contents ht)
  exact ⟨ss', ht, hk.of_precedes hp hs.sound hsettled.sound hsafe⟩

/-- A step edits a table that its name points to and leaves every other one alone. -/
theorem Sound.edited_or_not_scope (hs : s.Sound) (step : Step)
    (hx : s.store.contents? (.object id) = some (τ.contents ss)) (hk : s.store.Keyed τ.key ss) :
    (∃ h, s.Opened h (some id) (τ.contents ss) ∧ s.Edited id τ ss step (step.edits s id τ)) ∨
      step.edits s id τ = [] ∧
        ∀ ss', ¬ (step.scope s).objects id (.collection (τ.contents ss')) := by
  unfold Step.edits
  by_cases hc : step.changes?.map s.handle = some (.object id)
  · obtain ⟨name, hname, hid⟩ := Option.map_eq_some_iff.mp hc
    rw [if_pos hc]
    cases step with
    | set step =>
      cases τ with
      | hashSet t => exact .inl ⟨name, ⟨hid, hx⟩, hs.edited_setStep ⟨hid, hx⟩ hk hname⟩
      | dictionary k v =>
        refine .inr ⟨rfl, fun ss' hw => ?_⟩
        obtain ⟨-, t, ss', hb⟩ := hw
        cases hb
    | dictionary step =>
      cases τ with
      | dictionary k v => exact .inl ⟨name, ⟨hid, hx⟩, hs.edited_dictionaryStep ⟨hid, hx⟩ hk hname⟩
      | hashSet t =>
        refine .inr ⟨rfl, fun ss' hw => ?_⟩
        obtain ⟨-, k, v, ss', hb⟩ := hw
        cases hb
    | handle | type | enumeration | activator | list | queue => cases hname
  · rw [if_neg hc]
    exact .inr ⟨rfl, fun ss' hw => hc (changes_of_scope hw)⟩

theorem Settled.tabulates_advance (hs : s.Settled) (step : Step) (h : s.Tabulates id τ es)
    (ht : (s.advance step).2.store.contents? (.object id) = some (τ.contents ss)) :
    (s.advance step).2.Tabulates id τ (applyAll es (step.edits s id τ)) := by
  have ⟨ss', hx, hk, hes⟩ := h
  rcases hs.sound.edited_or_not_scope step hx hk with ⟨name, ho, he⟩ | ⟨hnone, hn⟩
  · exact hes ▸ he.tabulates hs.sound ho hk
  · rw [hnone]
    exact hs.tabulates_of_not_scope h ht (hn ss)

theorem Settled.marked_advance (hs : s.Settled) (step : Step) (h : s.Tabulates id τ es)
    {e : Entry τ.key.Value τ.Value} (hput : .put e ∈ step.edits s id τ) :
    (s.advance step).2.Marked τ e := by
  obtain ⟨ss', hx, hk, -⟩ := h
  rcases hs.sound.edited_or_not_scope step hx hk with ⟨name, -, he⟩ | ⟨hnone, -⟩
  · exact he.marked hput
  · rw [hnone] at hput
    cases hput

/-- No name points to an object that is not made yet. -/
theorem Sound.edits_of_size_le (hs : s.Sound) (hge : s.store.cells.size ≤ id) (step : Step) :
    step.edits s id τ = [] := by
  refine if_neg fun hc => ?_
  obtain ⟨name, -, hid⟩ := Option.map_eq_some_iff.mp hc
  have hlive := (hid ▸ hs.safe_handle name).isLive
  exact absurd hlive.lt_size (Nat.not_lt.mpr hge)

/-- A new table is empty. -/
theorem Settled.tabulates_advance_of_size_le (hs : s.Settled) (step : Step)
    (hge : s.store.cells.size ≤ id)
    (ht : (s.advance step).2.store.contents? (.object id) = some (τ.contents ss)) :
    (s.advance step).2.Tabulates id τ [] := by
  rcases hs.sound.contents?_of_advance step ht with hw | hc | ⟨-, hcount⟩
  · obtain ⟨name, -, hid⟩ := Option.map_eq_some_iff.mp (changes_of_scope hw)
    have hlive := (hid ▸ hs.sound.safe_handle name).isLive
    exact absurd hlive.lt_size (Nat.not_lt.mpr hge)
  · obtain ⟨d, hd, -⟩ := Store.contents?_object.mp hc
    exact absurd (Store.lt_size_of_find? hd) (Nat.not_lt.mpr hge)
  · have hss : ss = [] := by cases τ <;> exact List.length_eq_zero_iff.mp hcount
    subst hss
    exact ⟨[], ht, Table.keyed_nil, rfl⟩

/-- A table was a table of the same types before. -/
theorem contents?_of_precedes {t : Session} (h : s.store.Precedes t.store)
    (hlt : id < s.store.cells.size)
    (ht : t.store.contents? (.object id) = some (τ.contents ss)) :
    ∃ ss', s.store.contents? (.object id) = some (τ.contents ss') := by
  obtain ⟨d, hd, hb⟩ := Store.contents?_object.mp ht
  obtain ⟨c, hc, hcd⟩ := h.cell id d hlt hd
  have hbody := hcd.body
  rw [hb] at hbody
  generalize hx : c.body = x at hbody
  cases hbody with
  | refl => exact ⟨ss, Store.contents?_object.mpr ⟨c, hc, hx⟩⟩
  | contents hk =>
    obtain ⟨ss', rfl⟩ := τ.contents_of_kind hk
    exact ⟨ss', Store.contents?_object.mpr ⟨c, hc, hx⟩⟩

theorem Tabulates.lt_size (h : s.Tabulates id τ es) : id < s.store.cells.size := by
  obtain ⟨ss, hc, -⟩ := h
  obtain ⟨d, hd, -⟩ := Store.contents?_object.mp hc
  exact Store.lt_size_of_find? hd

/-- A table that there is after some steps is there after the first of them. -/
theorem Settled.contents?_advance (hs : s.Settled) {step : Step} {steps : List Step}
    (hlt : id < (s.advance step).2.store.cells.size)
    (ht : (s.advanceAll (step :: steps)).2.store.contents? (.object id) = some (τ.contents ss)) :
    ∃ ss', (s.advance step).2.store.contents? (.object id) = some (τ.contents ss') :=
  contents?_of_precedes (precedes_advanceAll (advance_settled hs step).1 steps) hlt ht

/-- A step adds its edits to those that have made a table. -/
theorem Settled.records_advance (hs : s.Settled) (step : Step)
    {before : List (Edit τ.key.Value τ.Value)} (h : s.Records id τ before)
    (ht : (s.advance step).2.store.contents? (.object id) = some (τ.contents ss)) :
    (s.advance step).2.Records id τ (before ++ step.edits s id τ) where
  tabulates := by
    rw [Edit.applyAll_append]
    exact hs.tabulates_advance step h.tabulates ht
  marked e he := by
    rcases List.mem_append.mp he with he | he
    · exact (h.marked e he).mono (advance_settled hs step).2
    · exact hs.marked_advance step h.tabulates he

/-- So do steps that are run one after the other. -/
theorem Settled.records_advanceAll (hs : s.Settled) (steps : List Step)
    {before : List (Edit τ.key.Value τ.Value)} (h : s.Records id τ before)
    (ht : (s.advanceAll steps).2.store.contents? (.object id) = some (τ.contents ss)) :
    (s.advanceAll steps).2.Records id τ (before ++ edits id τ s steps) := by
  induction steps generalizing s before with
  | nil => exact (List.append_nil before).symm ▸ h
  | cons step steps ih =>
    obtain ⟨hs', hp⟩ := advance_settled hs step
    have hlt := Nat.lt_of_lt_of_le h.tabulates.lt_size hp.size_le
    obtain ⟨ss', hc'⟩ := hs.contents?_advance hlt ht
    rw [edits, ← List.append_assoc]
    exact ih hs' (hs.records_advance step h hc') ht

/-- A table that was made in the course of some steps has been made by their edits. -/
theorem Settled.records_advanceAll_of_size_le (hs : s.Settled) (steps : List Step)
    (hge : s.store.cells.size ≤ id)
    (ht : (s.advanceAll steps).2.store.contents? (.object id) = some (τ.contents ss)) :
    (s.advanceAll steps).2.Records id τ (edits id τ s steps) := by
  induction steps generalizing s with
  | nil =>
    obtain ⟨d, hd, -⟩ := Store.contents?_object.mp ht
    exact absurd (Store.lt_size_of_find? hd) (Nat.not_lt.mpr hge)
  | cons step steps ih =>
    obtain ⟨hs', -⟩ := advance_settled hs step
    rw [edits, hs.sound.edits_of_size_le hge, List.nil_append]
    by_cases hge' : (s.advance step).2.store.cells.size ≤ id
    · exact ih hs' hge' ht
    · obtain ⟨ss', hc'⟩ := hs.contents?_advance (Nat.lt_of_not_le hge') ht
      have hnew : (s.advance step).2.Records id τ [] :=
        ⟨hs.tabulates_advance_of_size_le step hge hc', nofun⟩
      exact hs'.records_advanceAll steps hnew ht

/-- A table has been made by all edits of it since the start. -/
theorem run_records (steps : List Step)
    (ht : (start.advanceAll steps).2.store.contents? (.object id) = some (τ.contents ss)) :
    (start.advanceAll steps).2.Records id τ (edits id τ start steps) :=
  start_settled.records_advanceAll_of_size_le steps (Nat.zero_le id) ht

end Session

end CountedObjects
