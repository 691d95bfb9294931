import CountedObjects.Proofs.Collection.Pairs
import CountedObjects.Proofs.Session.Journal
import CountedObjects.Proofs.Session.Survivors
import CountedObjects.Proofs.Shown

/-! Dictionaries answer for each key what the last edit of an equal key has left, and change as a
list of pairs does that is searched for an equal key from its front to its back. -/
namespace CountedObjects

/-- What is asked of a dictionary, with the arguments that were built for it. -/
inductive DictionaryCall (κ ν : Type)
  | add (k : κ) (v : ν)
  | set (k : κ) (v : ν)
  | get (k : κ) (target : Option String)
  | tryGet (k : κ)
  | containsKey (k : κ)
  | remove (k : κ)
  | count
  | clear

/-- The name of the dictionary that a step calls, and the call. -/
def DictionaryStep.call? (kt vt : ElementType) :
    DictionaryStep → Option (String × Action (DictionaryCall kt.Value vt.Value))
  | add h k v => some (h, do return .add (← k.element kt) (← v.element vt))
  | set h k v => some (h, do return .set (← k.element kt) (← v.element vt))
  | get h k target => some (h, do return .get (← k.element kt) target)
  | tryGet h k => some (h, do return .tryGet (← k.element kt))
  | containsKey h k => some (h, do return .containsKey (← k.element kt))
  | remove h k => some (h, do return .remove (← k.element kt))
  | count h => some (h, return .count)
  | clear h => some (h, return .clear)
  | new .. | containsValue .. | keys .. | values .. => none

/-- The call by a step of the dictionary with a number, under whatever name. -/
def Step.dictionaryCall? (s : Session) (id : Nat) (kt vt : ElementType) :
    Step → Option (Action (DictionaryCall kt.Value vt.Value))
  | .dictionary step =>
    (step.call? kt vt).bind fun p => if s.handle p.1 = .object id then some p.2 else none
  | _ => none

/-- What is shown of a value is what is shown, in a later state, of an object that stands for it. -/
def Session.Shows (s : Session) (t : ElementType) (v : t.Value) (r : Result View) : Prop :=
  ∃ (o : Handle) (u : Session), s.store.Precedes u.store ∧ u.Sound ∧ u.store.Safe o ∧
    t.Represents u.store v o ∧ r = u.store.view o

/-- A step gives out an element: it answers what is shown of an object that stands for it, to which
the name points afterwards that the step has for it. An object that has no descriptor cannot be
shown, and is not named then. -/
def Session.GivesOut (s : Session) (t : ElementType) (x : t.Value) (target : Option String)
    (r : Result Answer) (w : Session) : Prop :=
  ∃ (o : Handle) (u : Session), s.store.Precedes u.store ∧ u.Sound ∧ u.store.Safe o ∧
    t.Represents u.store x o ∧ (u.store.view o).Shows ∧ r = (u.store.view o).map .object ∧
    ∀ name v, target = some name → u.store.view o = .ok v → w.handle name = o

/-- What is answered where a value may be missing. -/
def Session.ShowsOptional (s : Session) (t : ElementType) (v : Option t.Value)
    (r : Result Answer) : Prop :=
  match v with
  | none => r = .ok (.optional none)
  | some v => ∃ x, s.Shows t v x ∧ r = x.map fun y => .optional (some y)

namespace DictionaryCall

variable {kt vt : ElementType} (s : Store)

def apply (ps : List (kt.Value × vt.Value)) :
    DictionaryCall kt.Value vt.Value → List (kt.Value × vt.Value)
  | add k v => if (Pairs.found (kt.same s) k ps).isSome then ps else ps ++ [(k, v)]
  | set k v => Pairs.give (kt.same s) k v ps
  | remove k => Pairs.erase (kt.same s) k ps
  | clear => []
  | get .. | tryGet _ | containsKey _ | count => ps

end DictionaryCall

/-- What a call may answer, from the state in which its arguments are built, and what it may name
in the state after the step. -/
def DictionaryCall.Answers {kt vt : ElementType} (s : Session) (ps : List (kt.Value × vt.Value))
    (r : Result Answer) (w : Session) : DictionaryCall kt.Value vt.Value → Prop
  | add k _ => r = if (Pairs.found (kt.same s.store) k ps).isSome then
      do .error (.collection (.duplicateKey (← kt.display s.store k)))
    else .ok .nothing
  | get k target => match Pairs.found (kt.same s.store) k ps with
    | none => r = do .error (.collection (.keyNotFound (← kt.display s.store k)))
    | some v => s.GivesOut vt v target r w
  | set k _ | tryGet k => s.ShowsOptional vt (Pairs.found (kt.same s.store) k ps) r
  | containsKey k | remove k => r = .ok (.flag (Pairs.found (kt.same s.store) k ps).isSome)
  | count => r = .ok (.size ps.length)
  | clear => r = .ok .nothing

namespace Session

/-- The object with a number is a dictionary with the entries. -/
def HasEntries (s : Session) (id : Nat) (kt vt : ElementType)
    (ps : List (kt.Value × vt.Value)) : Prop :=
  ∃ ss, s.store.contents? (.object id) = some (.dictionary kt vt ss) ∧ ss.map Slot.pair = ps

open Relation (ReflTransGen)

/-- A dictionary with the entries recalls the edits that were made of it. Keys are found by what the
last edit of an equal key has put, all calls answer accordingly, and steps that are no calls of the
dictionary leave it alone. Keys that are not equal to themselves are not found and pile up. -/
structure Recalls (s : Session) (id : Nat) (kt vt : ElementType)
    (edits : List (Edit kt.Value vt.Value)) (ps : List (kt.Value × vt.Value)) : Prop where
  distinct : ps.Pairwise fun p q => kt.same s.store p.1 q.1 = false
  same_eq : ∀ k l, s.store.SafeAll (kt.owned k) → s.store.SafeAll (kt.owned l) →
    kt.same s.store k l = (kt.mark s.store k).same (kt.mark s.store l)
  marked : ∀ e, .put e ∈ edits → s.Marked (.dictionary kt vt) e
  found_iff : ∀ (l : Literal) k u, l.element kt s = (.ok k, u) → ∀ v,
    Pairs.found (kt.same u.store) k ps = some v ↔ Edit.LastPut edits (kt.mark u.store k) v
  answers : ∀ (step : Step) a c u, step.dictionaryCall? s id kt vt = some a → a s = (.ok c, u) →
    c.Answers u ps (s.advance step).1.outcome (s.advance step).2
  entries : ∀ (step : Step) a c u, step.dictionaryCall? s id kt vt = some a → a s = (.ok c, u) →
    ((∃ k target, c = .get k target) → (s.advance step).2.store.IsLive id) →
      (s.advance step).2.HasEntries id kt vt (c.apply u.store ps)
  error : ∀ (step : Step) a e u, step.dictionaryCall? s id kt vt = some a → a s = (.error e, u) →
    (s.advance step).1.outcome = .error e ∧ (s.advance step).2.HasEntries id kt vt ps
  /-- A call after which the dictionary holds the handles that it held lets go of all others. -/
  releases : ∀ (step : Step) a ps', step.dictionaryCall? s id kt vt = some a →
    (∀ k target u, a s ≠ (.ok (.get k target), u)) → (s.advance step).2.HasEntries id kt vt ps' →
      Pairs.owned kt vt ps' = Pairs.owned kt vt ps →
        ∀ j, (s.advance step).2.store.refs j = s.store.refs j
  /-- A key that is set again stays as it was first stored. Of what was built to set it only what
  the value leads to lives on, and an older object has no more references than before, unless the
  value or something new that lives on holds it. -/
  overwrites : ∀ (step : Step) a k v u, step.dictionaryCall? s id kt vt = some a →
    a s = (.ok (.set k v), u) → (Pairs.found (kt.same u.store) k ps).isSome = true →
      (DictionaryCall.apply u.store ps (.set k v)).map Prod.fst = ps.map Prod.fst ∧
        (∀ j, s.store.cells.size ≤ j → (s.advance step).2.store.IsLive j →
          ∃ i, .object i ∈ vt.owned v ∧ s.store.cells.size ≤ i ∧
            ReflTransGen (s.advance step).2.store.Owns i j) ∧
        ∀ j, .object j ∉ vt.owned v →
          (∀ i, s.store.cells.size ≤ i → ¬ (s.advance step).2.store.Owns i j) →
            (s.advance step).2.store.refs j ≤ s.store.refs j
  found_nan : ∀ (l : Literal) k u, l.element kt s = (.ok k, u) → kt.same u.store k k = false →
    Pairs.found (kt.same u.store) k ps = none ∧
      ∀ v, Pairs.give (kt.same u.store) k v ps = ps ++ [(k, v)]
  filter_nan : ∀ m : Mark, m.HasNaN → (ps.filter fun p => kt.mark s.store p.1 = m) =
    ((Edit.sinceSweep edits).filterMap (Edit.put? m)).map fun e => (e.key, e.value)
  others : ∀ step : Step, step.dictionaryCall? s id kt vt = none →
    (s.advance step).2.store.IsLive id → (s.advance step).2.HasEntries id kt vt ps

end Session

namespace Session

open Edit (applyAll)
open Relation (ReflTransGen)

variable {s u w : Session} {h : String} {id : Nat} {kt vt : ElementType}
  {ss ss' : List (Slot kt.Value vt.Value)} {step : DictionaryStep}
  {a : Action (DictionaryCall kt.Value vt.Value)} {r : Result Answer}

/-- How a step on a dictionary ends: it fails as its arguments do, it leaves the dictionary alone,
it gives out a value or it changes the dictionary. -/
inductive Asked (s : Session) (id : Nat) (kt vt : ElementType)
    (ss : List (Slot kt.Value vt.Value)) (step : DictionaryStep)
    (a : Action (DictionaryCall kt.Value vt.Value)) : Prop
  | failed (e : Fault) (u : Session) (run : a s = (.error e, u)) (sound : u.Sound)
    (builds : s.Builds u) (ends : Action.dictionaryStep step s = (.error e, u))
  | answered (c : DictionaryCall kt.Value vt.Value) (u w : Session) (r : Result Answer)
    (run : a s = (.ok c, u)) (sound : w.Sound) (builds : s.Builds w)
    (same : c.apply u.store (ss.map Slot.pair) = ss.map Slot.pair)
    (answers : c.Answers u (ss.map Slot.pair) r (s.advance (.dictionary step)).2)
    (ends : Action.dictionaryStep step s = (r, w))
  | gave (k : kt.Value) (target : Option String) (u : Session) (r : Result Answer)
    (run : a s = (.ok (.get k target), u))
    (answers : (DictionaryCall.get k target).Answers u (ss.map Slot.pair) r
      (s.advance (.dictionary step)).2)
    (ends : (Action.dictionaryStep step s).1 = r) (reads : step.changes? = none)
  | changed (c : DictionaryCall kt.Value vt.Value) (u w : Session) (r : Result Answer)
    (ss' : List (Slot kt.Value vt.Value)) (run : a s = (.ok c, u)) (sound : w.Sound)
    (builds : s.Builds w) (keyed : w.store.Keyed kt ss')
    (safe : w.store.SafeAll (Contents.dictionary kt vt ss').owned)
    (pairs : ss'.map Slot.pair = c.apply u.store (ss.map Slot.pair))
    (answers : c.Answers u (ss.map Slot.pair) r (s.advance (.dictionary step)).2)
    (ends : Action.dictionaryStep step s =
      (r, w.mapRealm (·.replace id (.dictionary kt vt ss'))))

/-- The object that stands for a value may be shown in a later state. -/
theorem Builds.shows {o : Handle} {t : ElementType} {v : t.Value} (hb : s.Builds u)
    (hp : u.store.Precedes w.store) (hw : w.Sound) (hh : w.Holds o)
    (hv : t.Represents u.store v o) : s.Shows t v (w.store.view o) :=
  ⟨o, w, hb.store.toPrecedes.trans hp, hw, hw.safe_of_holds hh,
    hv.mono hp (hw.safe_of_holds hh), rfl⟩

/-- The object that stands for an element may be given out in a later state. -/
theorem Builds.givesOut {o : Handle} {t : ElementType} {x : t.Value} (hb : s.Builds u)
    (hp : u.store.Precedes w.store) (hw : w.Sound) (hh : w.Holds o)
    (hx : t.Represents u.store x o) (target : Option String) :
    s.GivesOut t x target ((w.store.view o).map .object)
      (Action.deliver target o w).2.endStep := by
  have hsafe := hw.safe_of_holds hh
  refine ⟨o, w, hb.store.toPrecedes.trans hp, hw, hsafe, hx.mono hp hsafe, w.store.view_shows o,
    rfl, fun name v htarget hv => ?_⟩
  rw [endStep_handle, htarget, Action.handle_deliver hv]

theorem Builds.showsOptional {t : ElementType} {v : Option t.Value} {o : Option Handle}
    (hb : s.Builds u) (hp : u.store.Precedes w.store) (hw : w.Sound) (hheld : u.held <:+ w.held)
    (hv : Option.Rel (fun v o => u.Holds o ∧ t.Represents u.store v o) v o) :
    s.ShowsOptional t v ((o.mapM w.store.view).map .optional) := by
  cases hv with
  | none => rfl
  | some h =>
    obtain ⟨hh, hv⟩ := h
    refine ⟨_, hb.shows hp hw (hh.mono hheld) hv, ?_⟩
    rw [Option.mapM_some]
    cases w.store.view _ <;> rfl

theorem Sound.asked (hs : s.Sound) (ho : s.Opened h (some id) (.dictionary kt vt ss))
    (hk : s.store.Keyed kt ss) (hc : step.call? kt vt = some (h, a)) :
    s.Asked id kt vt ss step a := by
  have hopen := Action.openDictionary_run ho
  have keyed : ∀ {u}, u.Sound → s.Builds u → u.store.Keyed kt ss :=
    fun hu hb => (hk.of_grows hb.store hs hu).1
  have all : ∀ {u}, u.Sound → s.Builds u → Table.All (fun x => u.store.SafeAll (kt.owned x))
      (fun x => u.store.SafeAll (vt.owned x)) ss :=
    fun hu hb => Store.safeAll_dictionary.mp (hu.safeAll_contents (ho.mono hb).2)
  have get?_eq : ∀ {u key}, u.Sound → s.Builds u → u.store.SafeAll (kt.owned key) →
      Table.get? (kt.keying u.store) key ss =
        Pairs.found (kt.same u.store) key (ss.map Slot.pair) :=
    fun hu hb hx => Table.get?_eq_found (kt.keying_marks hu) (keyed hu hb) hx
  have contains_eq : ∀ {u key}, u.Sound → s.Builds u → u.store.SafeAll (kt.owned key) →
      Table.contains (kt.keying u.store) key ss =
        (Pairs.found (kt.same u.store) key (ss.map Slot.pair)).isSome :=
    fun hu hb hx => Table.contains_eq_isSome_found (kt.keying_marks hu) (keyed hu hb) hx
  have pairs_eq : ∀ {u key}, u.Sound → s.Builds u → u.store.SafeAll (kt.owned key) → ∀ value,
      (Table.insert (kt.keying u.store) key value ss).map Slot.pair =
        Pairs.give (kt.same u.store) key value (ss.map Slot.pair) :=
    fun hu hb hx value => Table.pairs_insert (kt.keying_marks hu) (keyed hu hb) hx value
  cases step with
  | add _ k v =>
    cases hc
    rcases hs.entry_error_or_ok ho k v with
      ⟨e, u, hu, hb, hentry, hrun⟩ | ⟨key, u', value, u, hkey, hv, hu, hb, hsafe, hsafe'⟩
    · exact .failed e u (hentry _) hu hb (hrun _)
    · have hcall : (do return .add (← k.element kt) (← v.element vt) :
          Action (DictionaryCall kt.Value vt.Value)) s = (.ok (.add key value), u) :=
        (Action.bind_ok hkey _).trans (Action.bind_ok hv _)
      have hfound := contains_eq hu hb hsafe
      cases hcontains : Table.contains (kt.keying u.store) key ss with
      | true =>
        rw [hcontains] at hfound
        refine .answered _ u u _ hcall hu hb (if_pos hfound.symm) ?_
          (Action.dictionaryStep_add_run_of_contains ho hkey hv hcontains)
        exact (if_pos hfound.symm).symm
      | false =>
        rw [hcontains] at hfound
        have hnot : ¬ (Pairs.found (kt.same u.store) key (ss.map Slot.pair)).isSome = true := by
          rw [← hfound]
          exact Bool.false_ne_true
        have hinsert := (all hu hb).insert (kt.keying u.store) hsafe hsafe'
        have hsafe_all := Store.safeAll_dictionary.mpr hinsert
        refine .changed _ u u _ _ hcall hu hb ((keyed hu hb).insert hsafe value) hsafe_all ?_ ?_
          (Action.dictionaryStep_add_run ho hkey hv hcontains)
        · have hnone := Option.not_isSome_iff_eq_none.mp hnot
          rw [pairs_eq hu hb hsafe, Pairs.give_of_found_eq_none hnone]
          exact (if_neg hnot).symm
        · exact (if_neg hnot).symm
  | set _ k v =>
    cases hc
    rcases hs.entry_error_or_ok ho k v with
      ⟨e, u, hu, hb, hentry, hrun⟩ | ⟨key, u', value, u, hkey, hv, hu, hb, hsafe, hsafe'⟩
    · exact .failed e u (hentry _) hu hb (hrun _)
    · have hcall : (do return .set (← k.element kt) (← v.element vt) :
          Action (DictionaryCall kt.Value vt.Value)) s = (.ok (.set key value), u) :=
        (Action.bind_ok hkey _).trans (Action.bind_ok hv _)
      obtain ⟨old, w, hold, hw, hb', hrel⟩ := hu.foundValue (ho.mono hb) (kt.keying u.store) key
      have hkeyed : u.store.Keyed kt (Table.insert (kt.keying u.store) key value ss) :=
        (keyed hu hb).insert hsafe value
      have hinsert := (all hu hb).insert (kt.keying u.store) hsafe hsafe'
      have hsafe_all : w.store.SafeAll (Contents.dictionary kt vt _).owned :=
        fun x hx => hb'.store.safe (Store.safeAll_dictionary.mpr hinsert x hx)
      have hreplaced : (w.mapRealm (·.replace id (.dictionary kt vt
          (Table.insert (kt.keying u.store) key value ss)))).Sound :=
        Store.Sound.replace hw hsafe_all id
      refine .changed _ u w _ _ hcall hw (hb.trans hb') (hkeyed.of_grows hb'.store hu hw).1
        hsafe_all (pairs_eq hu hb hsafe value) ?_ (Action.dictionaryStep_set_run ho hkey hv hold)
      rw [get?_eq hu hb hsafe] at hrel
      exact hb'.showsOptional (w.precedes_replace ..) hreplaced List.suffix_rfl hrel
  | get _ k target =>
    cases hc
    rcases (Action.element_ensures hs kt k).error_or_ok with
      ⟨e, u, hkey, hu, hb⟩ | ⟨key, u, hkey, hu, hb, hsafe⟩
    · exact .failed e u (Action.bind_error hkey _) hu hb (Action.argument_run_error hopen hkey _)
    · refine .gave key target u _ (Action.bind_ok hkey _) ?_ rfl rfl
      rw [DictionaryCall.Answers, ← get?_eq hu hb hsafe]
      cases hg : Table.get? (kt.keying u.store) key ss with
      | none => exact congrArg Prod.fst (Action.dictionaryStep_get_run_of_get?_eq_none ho hkey hg)
      | some value =>
        have hmade := Action.toObject_ensures hu vt value ((all hu hb).get? hg)
        have hrep := vt.represents_toObject u.realm value
        have hrun : Action.dictionaryStep (.get h k target) s = _ :=
          Action.dictionaryStep_get_run_of_get?_eq_some ho hkey hg rfl
        rw [advance_eq_endStep (.dictionary (.get h k target)) hrun, hrun]
        exact hmade.follows.givesOut (.refl _) hmade.sound (hmade.result _ rfl) hrep target
  | tryGet _ k =>
    cases hc
    rcases (Action.element_ensures hs kt k).error_or_ok with
      ⟨e, u, hkey, hu, hb⟩ | ⟨key, u, hkey, hu, hb, hsafe⟩
    · exact .failed e u (Action.bind_error hkey _) hu hb (Action.argument_run_error hopen hkey _)
    · obtain ⟨old, w, hold, hw, hb', hrel⟩ := hu.foundValue (ho.mono hb) (kt.keying u.store) key
      refine .answered (.tryGet key) u w _ (Action.bind_ok hkey _) hw (hb.trans hb') rfl ?_
        (Action.dictionaryStep_tryGet_run ho hkey hold)
      rw [get?_eq hu hb hsafe] at hrel
      exact hb'.showsOptional (.refl _) hw List.suffix_rfl hrel
  | containsKey _ k =>
    cases hc
    rcases (Action.element_ensures hs kt k).error_or_ok with
      ⟨e, u, hkey, hu, hb⟩ | ⟨key, u, hkey, hu, hb, hsafe⟩
    · exact .failed e u (Action.bind_error hkey _) hu hb (Action.argument_run_error hopen hkey _)
    · refine .answered (.containsKey key) u u _ (Action.bind_ok hkey _) hu hb rfl ?_
        (Action.dictionaryStep_containsKey_run ho hkey)
      rw [contains_eq hu hb hsafe]
      rfl
  | remove _ k =>
    cases hc
    rcases (Action.element_ensures hs kt k).error_or_ok with
      ⟨e, u, hkey, hu, hb⟩ | ⟨key, u, hkey, hu, hb, hsafe⟩
    · exact .failed e u (Action.bind_error hkey _) hu hb (Action.argument_run_error hopen hkey _)
    · have hpairs := Table.pairs_erase (kt.keying_marks hu) (keyed hu hb) hsafe
      have hsafe_all := Store.safeAll_dictionary.mpr ((all hu hb).erase (kt.keying u.store) key)
      refine .changed (.remove key) u u _ _ (Action.bind_ok hkey _) hu hb ((keyed hu hb).erase key)
        hsafe_all hpairs ?_ (Action.dictionaryStep_remove_run ho hkey)
      rw [contains_eq hu hb hsafe]
      rfl
  | count _ =>
    cases hc
    refine .answered .count s s _ rfl hs (.refl s) rfl ?_ (Action.dictionaryStep_count_run ho)
    rw [DictionaryCall.Answers, List.length_map]
  | clear _ =>
    cases hc
    exact .changed .clear s s _ [] rfl hs (.refl s) Table.keyed_nil s.store.safeAll_nil rfl rfl
      (Action.dictionaryStep_clear_run ho)
  | new | containsValue | keys | values => cases hc

variable {ps ps' : List (kt.Value × vt.Value)}

theorem HasEntries.unique (hp : s.HasEntries id kt vt ps) (hp' : s.HasEntries id kt vt ps') :
    ps = ps' := by
  obtain ⟨ss, hc, rfl⟩ := hp
  obtain ⟨ss', hc', rfl⟩ := hp'
  cases hc.symm.trans hc'
  rfl

theorem Opened.hasEntries_of_run (ho : u.Opened h (some id) (.dictionary kt vt ss)) (hu : u.Sound)
    (hrun : Action.dictionaryStep step s = (r, u)) :
    (s.advance (.dictionary step)).2.HasEntries id kt vt (ss.map Slot.pair) :=
  ⟨ss, ho.contents?_of_run hu (.dictionary step) hrun, rfl⟩

theorem Opened.hasEntries_of_replaces (ho : u.Opened h (some id) (.dictionary kt vt ss))
    (hu : u.Sound) (hx : u.store.SafeAll (Contents.dictionary kt vt ss').owned)
    (hrun : Action.dictionaryStep step s =
      (r, u.mapRealm (·.replace id (.dictionary kt vt ss')))) :
    (s.advance (.dictionary step)).2.HasEntries id kt vt (ss'.map Slot.pair) :=
  have hc := ho.contents?_of_replaces (x := .dictionary kt vt ss') hu rfl hx (.dictionary step) hrun
  ⟨ss', hc, rfl⟩

theorem dictionaryCall?_eq_some {step : Step} (hc : step.dictionaryCall? s id kt vt = some a) :
    ∃ h step', step = .dictionary step' ∧ step'.call? kt vt = some (h, a) ∧
      s.handle h = .object id := by
  cases step with
  | dictionary step' =>
    obtain ⟨h, hcall, hid⟩ := call_eq_some_iff.mp hc
    exact ⟨h, step', rfl, hcall, hid⟩
  | _ => cases hc

/-- A step that does not call a dictionary does not change it. -/
theorem not_scope_of_dictionaryCall?_eq_none {step : Step}
    (hc : step.dictionaryCall? s id kt vt = none) :
    ¬ (step.scope s).objects id (.collection (.dictionary kt vt ss)) := by
  intro hw
  cases step with
  | dictionary step =>
    obtain ⟨h, hname, hid⟩ := Option.map_eq_some_iff.mp hw.1
    cases step with
    | add | set | remove | clear =>
      cases hname
      exact absurd hc (by simp [Step.dictionaryCall?, DictionaryStep.call?, hid])
    | _ => cases hname
  | set step =>
    obtain ⟨-, t, ss', hb⟩ := hw
    cases hb
  | list step =>
    obtain ⟨-, t', xs, hb⟩ := hw
    cases hb
  | queue step =>
    obtain ⟨-, t', xs, hb⟩ := hw
    cases hb
  | handle | type | enumeration | activator => exact hw.elim

theorem DictionaryStep.eq_of_changes? {h' : String} (hc : step.call? kt vt = some (h, a))
    (hn : step.changes? = some h') : h' = h := by
  cases step <;> cases hc <;> cases hn
  all_goals rfl

/-- A step leaves a dictionary as it is that is not in its scope. -/
theorem Settled.hasEntries_of_not_scope (hs : s.Settled) {step : Step}
    (hx : s.store.contents? (.object id) = some (.dictionary kt vt ss))
    (hl : (s.advance step).2.store.IsLive id)
    (hn : ∀ ss', ¬ (step.scope s).objects id (.collection (.dictionary kt vt ss'))) :
    (s.advance step).2.HasEntries id kt vt (ss.map Slot.pair) := by
  obtain ⟨hs', hp⟩ := advance_settled hs step
  obtain ⟨x, ht, hkind⟩ := contents?_of_isLive hp hx hl
  obtain ⟨ss', rfl⟩ := (TableType.dictionary kt vt).contents_of_kind hkind
  have heq := hs.sound.contents?_eq_of_not_scope hx ht (hn ss')
  cases heq
  exact ⟨ss, ht, rfl⟩

/-- A built key is found as its mark is among the entries. -/
theorem Sound.found_eq_lookup (hs : s.Sound) (hk : s.store.Keyed kt ss) {l : Literal}
    {k : kt.Value} (hrun : l.element kt s = (.ok k, u)) :
    Pairs.found (kt.same u.store) k (ss.map Slot.pair) =
      (Entry.lookup (kt.mark u.store k) (s.store.entries kt ss)).map Entry.value := by
  rcases (Action.element_ensures hs kt l).error_or_ok with
    ⟨e, u', hx, -⟩ | ⟨x, u', hx, hu, hb, hsafe⟩
  · cases hx.symm.trans hrun
  · cases hx.symm.trans hrun
    obtain ⟨hk', he⟩ := hk.of_grows hb.store hs hu
    have hmarks := kt.keying_marks hu
    rw [← he]
    exact (Table.get?_eq_found hmarks hk' hsafe).symm.trans (Table.get?_eq_lookup hmarks hk' hsafe)

/-- Only a key that equals itself equals another one. -/
theorem Sound.hasNaN_of_not_same (hs : s.Sound) {l : Literal} {k : kt.Value}
    (hrun : l.element kt s = (.ok k, u)) (hn : kt.same u.store k k = false) :
    (kt.mark u.store k).HasNaN := by
  rcases (Action.element_ensures hs kt l).error_or_ok with
    ⟨e, u', hx, -⟩ | ⟨x, u', hx, hu, hb, hsafe⟩
  · cases hx.symm.trans hrun
  · cases hx.symm.trans hrun
    rw [kt.same_eq_mark hu hsafe hsafe, ← Bool.not_eq_true, Mark.same_self_iff] at hn
    exact Classical.not_not.mp hn

theorem Settled.releases_dictionary (hs : s.Settled)
    (ho : s.Opened h (some id) (.dictionary kt vt ss)) (hk : s.store.Keyed kt ss)
    (hc : step.call? kt vt = some (h, a)) (hget : ∀ k target u, a s ≠ (.ok (.get k target), u))
    (hp : (s.advance (.dictionary step)).2.HasEntries id kt vt ps)
    (howned : Pairs.owned kt vt ps = Pairs.owned kt vt (ss.map Slot.pair)) (j : Nat) :
    (s.advance (.dictionary step)).2.store.refs j = s.store.refs j := by
  cases hs.sound.asked ho hk hc with
  | failed e u run sound builds ends | answered c u w r run sound builds same answers ends =>
    rw [advance_eq_endStep (.dictionary step) ends]
    exact hs.refs_endStep sound builds j
  | gave k target u r run => exact absurd run (hget k target u)
  | changed c u w r ss' run sound builds keyed safe pairs answers ends =>
    have hps := ((ho.mono builds).hasEntries_of_replaces sound safe ends).unique hp
    have hsame : (Contents.dictionary kt vt ss').owned = (Contents.dictionary kt vt ss).owned := by
      rw [Contents.owned_dictionary, hps, howned, Contents.owned_dictionary]
    rw [advance_eq_endStep (.dictionary step) ends]
    exact hs.refs_replace_endStep (x := .dictionary kt vt ss') sound builds ho.2 rfl hsame j

/-- To set a key again changes the dictionary alone. -/
theorem Settled.overwritten (hs : s.Settled) (ho : s.Opened h (some id) (.dictionary kt vt ss))
    (hk : s.store.Keyed kt ss) (hc : step.call? kt vt = some (h, a)) {k : kt.Value} {v : vt.Value}
    (hset : a s = (.ok (.set k v), u)) :
    (s.advance (.dictionary step)).2.roots = s.roots ∧
      s.store.Spares (fun i _ => i = id) (s.advance (.dictionary step)).2.store ∧
      (s.advance (.dictionary step)).2.HasEntries id kt vt
        (Pairs.give (kt.same u.store) k v (ss.map Slot.pair)) := by
  have ht := (advance_settled hs (.dictionary step)).1
  have hst := advance_spares hs.sound (.dictionary step)
  have hspares : s.store.Spares (fun i _ => i = id) (s.advance (.dictionary step)).2.store := by
    refine ⟨hst.toPrecedes, fun i d hd => (hst.spared i d hd).imp_left fun hw => ?_⟩
    obtain ⟨h', hname, hid⟩ := Option.map_eq_some_iff.mp hw.1
    cases DictionaryStep.eq_of_changes? hc hname
    cases hid.symm.trans ho.1
    rfl
  cases hs.sound.asked ho hk hc with
  | failed e u' run | gave k' target u' r run => cases run.symm.trans hset
  | answered c u' w r run sound builds same answers ends =>
    cases run.symm.trans hset
    refine ⟨roots_eq hs ht ?_ ?_, hspares, ?_⟩
    · rw [advance_eq_endStep (.dictionary step) ends]
      exact builds.handles
    · rw [advance_eq_endStep (.dictionary step) ends]
      exact builds.enumerators
    · rw [DictionaryCall.apply] at same
      rw [same]
      exact (ho.mono builds).hasEntries_of_run sound ends
  | changed c u' w r ss' run sound builds keyed safe pairs answers ends =>
    cases run.symm.trans hset
    refine ⟨roots_eq hs ht ?_ ?_, hspares, ?_⟩
    · rw [advance_eq_endStep (.dictionary step) ends]
      exact builds.handles
    · rw [advance_eq_endStep (.dictionary step) ends]
      exact builds.enumerators
    · rw [DictionaryCall.apply] at pairs
      rw [← pairs]
      exact (ho.mono builds).hasEntries_of_replaces sound safe ends

theorem HasEntries.owned_eq (hp : s.HasEntries id kt vt ps) {c : Cell}
    (hc : s.store.find? id = some c) : c.body.owned = Pairs.owned kt vt ps := by
  obtain ⟨ss, hx, rfl⟩ := hp
  obtain ⟨d, hd, hbody⟩ := Store.contents?_object.mp hx
  cases hc.symm.trans hd
  rw [hbody, Body.owned, Contents.owned_dictionary]

section

variable {k : kt.Value} {v : vt.Value} {j : Nat}

theorem Settled.survivor_of_overwrites (hs : s.Settled)
    (ho : s.Opened h (some id) (.dictionary kt vt ss)) (hk : s.store.Keyed kt ss)
    (hc : step.call? kt vt = some (h, a)) (hset : a s = (.ok (.set k v), u))
    (hfound : (Pairs.found (kt.same u.store) k (ss.map Slot.pair)).isSome = true)
    (hge : s.store.cells.size ≤ j) (hj : (s.advance (.dictionary step)).2.store.IsLive j) :
    ∃ i, .object i ∈ vt.owned v ∧ s.store.cells.size ≤ i ∧
      ReflTransGen (s.advance (.dictionary step)).2.store.Owns i j := by
  obtain ⟨hr, hst, hps⟩ := hs.overwritten ho hk hc hset
  have ht := (advance_settled hs (.dictionary step)).1
  obtain ⟨i, c, j', hfind, rfl, hm, hgej, hreach⟩ := hs.survivor ht hst hr hge hj
  rw [hps.owned_eq hfind] at hm
  rcases Pairs.mem_owned_give hfound hm with hv | hold
  · exact ⟨j', hv, hgej, hreach⟩
  · -- The dictionary held the object before, so that it cannot be new.
    rw [← Contents.owned_dictionary] at hold
    have hsafe := hs.sound.safeAll_contents ho.2 _ hold
    exact absurd hsafe.isLive.lt_size (Nat.not_lt.mpr hgej)

theorem Settled.refs_of_overwrites (hs : s.Settled)
    (ho : s.Opened h (some id) (.dictionary kt vt ss)) (hk : s.store.Keyed kt ss)
    (hc : step.call? kt vt = some (h, a)) (hset : a s = (.ok (.set k v), u))
    (hfound : (Pairs.found (kt.same u.store) k (ss.map Slot.pair)).isSome = true)
    (hv : .object j ∉ vt.owned v)
    (hnew : ∀ i, s.store.cells.size ≤ i → ¬ (s.advance (.dictionary step)).2.store.Owns i j) :
    (s.advance (.dictionary step)).2.store.refs j ≤ s.store.refs j := by
  obtain ⟨hr, hst, hps⟩ := hs.overwritten ho hk hc hset
  have ht := (advance_settled hs (.dictionary step)).1
  refine hs.refs_le ht hr fun i d hd hm => ?_
  rcases hst.spared i d hd with rfl | ⟨c, hfind, hcd⟩ | ⟨hge, -⟩
  · obtain ⟨c, hfind, -⟩ := Store.contents?_object.mp ho.2
    have hold : s.HasEntries i kt vt (ss.map Slot.pair) := ⟨ss, ho.2, rfl⟩
    refine ⟨c, hfind, ?_⟩
    rw [hps.owned_eq hd, hold.owned_eq hfind]
    exact Pairs.count_owned_give_le hv hfound
  · exact ⟨c, hfind, by rw [hcd.body]⟩
  · exact absurd ⟨d, hd, hm⟩ (hnew i hge)

end

theorem Settled.recalls {edits : List (Edit kt.Value vt.Value)} (hs : s.Settled)
    (hx : s.store.contents? (.object id) = some (.dictionary kt vt ss)) (hk : s.store.Keyed kt ss)
    (he : s.store.entries kt ss = applyAll [] edits)
    (hmarked : ∀ e, .put e ∈ edits → s.Marked (.dictionary kt vt) e) :
    s.Recalls id kt vt edits (ss.map Slot.pair) where
  distinct := by
    have hd := hk.distinct hs.sound (he ▸ Edit.distinct_applyAll List.Pairwise.nil edits)
    rw [List.pairwise_map] at hd ⊢
    exact hd
  same_eq k l hk hl := kt.same_eq_mark hs.sound hk hl
  marked := hmarked
  found_iff l k u hrun v := by
    rw [hs.sound.found_eq_lookup hk hrun, he]
    exact Edit.lookup_applyAll_iff edits _ v
  answers step a c u hc hrun := by
    obtain ⟨h, step, rfl, hcall, hid⟩ := dictionaryCall?_eq_some hc
    cases hs.sound.asked ⟨hid, hx⟩ hk hcall with
    | failed e u' run => cases run.symm.trans hrun
    | gave k target u' r run answers ends =>
      cases run.symm.trans hrun
      cases ends
      exact answers
    | answered c' u' w r run sound builds same answers ends
    | changed c' u' w r ss' run sound builds keyed safe pairs answers ends =>
      cases run.symm.trans hrun
      rwa [outcome_advance (.dictionary step) ends]
  entries step a c u hc hrun hl := by
    obtain ⟨h, step, rfl, hcall, hid⟩ := dictionaryCall?_eq_some hc
    have ho : s.Opened h (some id) (.dictionary kt vt ss) := ⟨hid, hx⟩
    cases hs.sound.asked ho hk hcall with
    | failed e u' run => cases run.symm.trans hrun
    | answered c' u' w r run sound builds same answers ends =>
      cases run.symm.trans hrun
      rw [same]
      exact (ho.mono builds).hasEntries_of_run sound ends
    | gave k target u' r run answers ends reads =>
      cases run.symm.trans hrun
      refine hs.hasEntries_of_not_scope hx (hl ⟨k, target, rfl⟩) fun ss' hw => ?_
      obtain ⟨h', hname, -⟩ := Option.map_eq_some_iff.mp hw.1
      cases reads.symm.trans hname
    | changed c' u' w r ss' run sound builds keyed safe pairs answers ends =>
      cases run.symm.trans hrun
      rw [← pairs]
      exact (ho.mono builds).hasEntries_of_replaces sound safe ends
  error step a e u hc hrun := by
    obtain ⟨h, step, rfl, hcall, hid⟩ := dictionaryCall?_eq_some hc
    have ho : s.Opened h (some id) (.dictionary kt vt ss) := ⟨hid, hx⟩
    cases hs.sound.asked ho hk hcall with
    | failed e' u' run sound builds ends =>
      cases run.symm.trans hrun
      exact ⟨outcome_advance (.dictionary step) ends, (ho.mono builds).hasEntries_of_run sound ends⟩
    | answered c u' w r run | gave k target u' r run | changed c u' w r ss' run =>
      cases run.symm.trans hrun
  releases step a ps' hc hget hp howned j := by
    obtain ⟨h, step, rfl, hcall, hid⟩ := dictionaryCall?_eq_some hc
    exact hs.releases_dictionary ⟨hid, hx⟩ hk hcall hget hp howned j
  overwrites step a k v u hc hrun hfound := by
    obtain ⟨h, step, rfl, hcall, hid⟩ := dictionaryCall?_eq_some hc
    have ho : s.Opened h (some id) (.dictionary kt vt ss) := ⟨hid, hx⟩
    refine ⟨Pairs.keys_give_of_found hfound v, fun j hge hj => ?_, fun j hv hnew => ?_⟩
    · exact hs.survivor_of_overwrites ho hk hcall hrun hfound hge hj
    · exact hs.refs_of_overwrites ho hk hcall hrun hfound hv hnew
  found_nan l k u hrun hn := by
    have hm := hs.sound.hasNaN_of_not_same hrun hn
    have hnone : Pairs.found (kt.same u.store) k (ss.map Slot.pair) = none := by
      rw [hs.sound.found_eq_lookup hk hrun, Entry.lookup_of_hasNaN hm]
      rfl
    exact ⟨hnone, Pairs.give_of_found_eq_none hnone⟩
  filter_nan m hm := by
    rw [← Edit.filter_applyAll_of_hasNaN hm, ← he, Store.entries, Table.entries, List.filter_map,
      List.filter_map, List.map_map]
    rfl
  others step hc hl :=
    hs.hasEntries_of_not_scope hx hl fun _ => not_scope_of_dictionaryCall?_eq_none hc

/-- A dictionary recalls all edits of it since the start, whatever names they were made under. -/
theorem run_recalls (steps : List Step)
    (hp : (start.advanceAll steps).2.HasEntries id kt vt ps) :
    (start.advanceAll steps).2.Recalls id kt vt (edits id (.dictionary kt vt) start steps) ps := by
  obtain ⟨ss, hc, rfl⟩ := hp
  obtain ⟨⟨ss', hc', hk, he⟩, hmarked⟩ := run_records (τ := .dictionary kt vt) steps hc
  cases hc.symm.trans hc'
  exact (run_settled steps).recalls hc hk he hmarked

/-- A key is set twice, under two names for the dictionary. -/
theorem run_recalls_set_twice :
    ∃ steps, (start.advanceAll steps).2.HasEntries 0 (.scalar .int) .string [(0, "b")] ∧
      (start.advanceAll steps).2.Recalls 0 (.scalar .int) .string
        (edits 0 (.dictionary (.scalar .int) .string) start steps) [(0, "b")] := by
  have hp : (start.advanceAll
      [.dictionary (.new "d" (.scalar .int) .string), .handle (.copy "e" "d"),
        .dictionary (.set "d" (.scalar (.int 0)) (.text "a")),
        .dictionary (.set "e" (.scalar (.int 0)) (.text "b"))]).2.HasEntries 0 (.scalar .int)
          .string [(0, "b")] :=
    ⟨[⟨0, (0 : Int32), "b"⟩], by decide +kernel, rfl⟩
  exact ⟨_, hp, run_recalls _ hp⟩

end Session

end CountedObjects
