import CountedObjects.Proofs.Session.Journal
import CountedObjects.Proofs.Session.Survivors

/-! Hash sets answer as a list does that is searched for an equal element from its front to its
back, and change as that list does. -/
namespace CountedObjects

/-- What is asked of a set, with the arguments that were built for it. -/
inductive SetCall (α : Type)
  | add (x : α)
  | contains (x : α)
  | remove (x : α)
  | union (ys : List α)
  | intersect (ys : List α)
  | count
  | clear

namespace SetCall

variable {α : Type} (same : α → α → Bool)

/-- Adds an element at the end unless an equal one is there. -/
def addTo (xs : List α) (x : α) : List α := if xs.any (same x) then xs else xs ++ [x]

def apply (xs : List α) : SetCall α → List α
  | add x => addTo same xs x
  | remove x => xs.eraseP (same x)
  | union ys => ys.foldl (addTo same) xs
  | intersect ys => xs.filter fun x => ys.any (same x)
  | clear => []
  | contains _ | count => xs

def answer (xs : List α) : SetCall α → Answer
  | add x => .flag !(xs.any (same x))
  | contains x | remove x => .flag (xs.any (same x))
  | union ys => .number (apply same xs (.union ys)).length
  | intersect ys => .number (apply same xs (.intersect ys)).length
  | count => .size xs.length
  | clear => .nothing

end SetCall

/-- The name of the set that a step calls, and the call. -/
def SetStep.call? (t : ElementType) : SetStep → Option (String × Action (SetCall t.Value))
  | add h l => some (h, do return .add (← l.element t))
  | contains h l => some (h, do return .contains (← l.element t))
  | remove h l => some (h, do return .remove (← l.element t))
  | union h source => some (h, do return .union (← Action.elementsOf t source))
  | intersect h source => some (h, do return .intersect (← Action.elementsOf t source))
  | count h => some (h, return .count)
  | clear h => some (h, return .clear)
  | new .. | toVec .. => none

/-- The call by a step of the set with a number, under whatever name. -/
def Step.setCall? (s : Session) (id : Nat) (t : ElementType) :
    Step → Option (Action (SetCall t.Value))
  | .set step => (step.call? t).bind fun p => if s.handle p.1 = .object id then some p.2 else none
  | _ => none

/-- The elements of a searched list after a step. A call whose arguments cannot be built leaves
them as they are. -/
def Step.search (s : Session) (id : Nat) (t : ElementType) (xs : List t.Value) (step : Step) :
    List t.Value :=
  match step.setCall? s id t with
  | none => xs
  | some a =>
    match a s with
    | (.ok c, u) => c.apply (t.same u.store) xs
    | (.error _, _) => xs

namespace Session

/-- The elements of a searched list after some steps. -/
def search (id : Nat) (t : ElementType) : Session → List t.Value → List Step → List t.Value
  | _, xs, [] => xs
  | s, xs, step :: steps => search id t (s.advance step).2 (step.search s id t xs) steps

/-- The object with a number is a set with the elements. -/
def HasElements (s : Session) (id : Nat) (t : ElementType) (xs : List t.Value) : Prop :=
  ∃ ss, s.store.contents? (.object id) = some (.hashSet t ss) ∧ ss.map Slot.key = xs

/-- A set with the elements answers each call as a list does, and is as the list is after it. A call
that changes nothing lets go of all that was built for it, and steps that are no calls of the set
leave it alone. -/
structure Searches (s : Session) (id : Nat) (t : ElementType) (xs : List t.Value) : Prop where
  distinct : xs.Pairwise fun x y => t.same s.store x y = false
  answer : ∀ (step : Step) a c u, step.setCall? s id t = some a → a s = (.ok c, u) →
    (s.advance step).1.outcome = .ok (c.answer (t.same u.store) xs) ∧
      (s.advance step).2.HasElements id t (c.apply (t.same u.store) xs)
  error : ∀ (step : Step) a e u, step.setCall? s id t = some a → a s = (.error e, u) →
    (s.advance step).1.outcome = .error e ∧ (s.advance step).2.HasElements id t xs
  releases : ∀ (step : Step) a, step.setCall? s id t = some a →
    (s.advance step).2.HasElements id t xs → ∀ j, (s.advance step).2.store.refs j = s.store.refs j
  common : ∀ (step : Step) a ys u, step.setCall? s id t = some a → a s = (.ok (.intersect ys), u) →
    ∀ x ∈ SetCall.apply (t.same u.store) xs (.intersect ys), t.same u.store x x = true
  others : ∀ step : Step, step.setCall? s id t = none → (s.advance step).2.store.IsLive id →
    (s.advance step).2.HasElements id t xs

end Session

namespace Table

variable {κ : Type} {q : Keying κ} {mark : κ → Mark} {K : κ → Prop} {ks : List κ}
  {t t' : List (Slot κ Unit)}

theorem keys_insert_eq_addTo (hq : q.Marks mark K) (ht : Keyed q K t) {k : κ} (hk : K k) :
    (insert q k () t).map Slot.key = SetCall.addTo q.same (t.map Slot.key) k := by
  rw [keys_insert, contains_eq_any hq ht hk]
  rfl

theorem keys_insertAll (hq : q.Marks mark K) (ht : Keyed q K t) (hks : ∀ k ∈ ks, K k) :
    (insertAll q t ks).map Slot.key = ks.foldl (SetCall.addTo q.same) (t.map Slot.key) := by
  induction ks generalizing t with
  | nil => rfl
  | cons k ks ih =>
    obtain ⟨hk, hks⟩ := List.forall_mem_cons.mp hks
    have h := ih (ht.insert hk ()) hks
    rw [keys_insert_eq_addTo hq ht hk] at h
    exact h

/-- A table of keys alone is known by its keys. -/
theorem Keyed.eq_of_keys_eq (ht : Keyed q K t) (ht' : Keyed q K t')
    (h : t.map Slot.key = t'.map Slot.key) : t = t' := by
  have slots_eq : ∀ {t : List (Slot κ Unit)}, Keyed q K t →
      t = (t.map Slot.key).map fun k => ⟨q.hash k, k, ()⟩ := by
    intro t ht
    rw [List.map_map]
    refine (List.map_id t).symm.trans (List.map_congr_left fun s hs => ?_)
    rw [id, Function.comp_apply, ← (ht s hs).hash]
  rw [slots_eq ht, slots_eq ht', h]

end Table

namespace Session

variable {s : Session} {h : String} {id : Nat} {t : ElementType} {ss : List (Slot t.Value Unit)}
  {step : SetStep} {a : Action (SetCall t.Value)}

/-- How a step on a set ends: it fails as its arguments do, or it answers as a list does and
either leaves the set alone or gives it the elements of the list. -/
inductive Called (s : Session) (id : Nat) (t : ElementType) (ss : List (Slot t.Value Unit))
    (step : SetStep) (a : Action (SetCall t.Value)) : Prop
  | failed (e : Fault) (u : Session) (run : a s = (.error e, u)) (sound : u.Sound)
    (builds : s.Builds u) (ends : Action.setStep step s = (.error e, u))
  | answered (c : SetCall t.Value) (u : Session) (run : a s = (.ok c, u)) (sound : u.Sound)
    (builds : s.Builds u)
    (reads : (∃ x, c = .contains x) ∨ c = .count)
    (ends : Action.setStep step s = (.ok (c.answer (t.same u.store) (ss.map Slot.key)), u))
  | changed (c : SetCall t.Value) (u : Session) (ss' : List (Slot t.Value Unit))
    (run : a s = (.ok c, u)) (sound : u.Sound) (builds : s.Builds u) (keyed : u.store.Keyed t ss')
    (keys : ss'.map Slot.key = c.apply (t.same u.store) (ss.map Slot.key))
    (common : ∀ ys, c = .intersect ys → ∀ x ∈ ss'.map Slot.key, t.same u.store x x = true)
    (ends : Action.setStep step s = (.ok (c.answer (t.same u.store) (ss.map Slot.key)),
      u.mapRealm (·.replace id (.hashSet t ss'))))

theorem Sound.called (hs : s.Sound) (ho : s.Opened h (some id) (.hashSet t ss))
    (hk : s.store.Keyed t ss) (hc : step.call? t = some (h, a)) : s.Called id t ss step a := by
  have hopen := Action.openSet_run ho
  have keyed : ∀ {u}, u.Sound → s.Builds u → u.store.Keyed t ss :=
    fun hu hb => (hk.of_grows hb.store hs hu).1
  have found : ∀ {u x}, u.Sound → s.Builds u → u.store.SafeAll (t.owned x) →
      Table.contains (t.keying u.store) x ss = (ss.map Slot.key).any (t.same u.store x) :=
    fun hu hb hx => Table.contains_eq_any (t.keying_marks hu) (keyed hu hb) hx
  cases step with
  | add _ l =>
    cases hc
    rcases (Action.element_ensures hs t l).error_or_ok with
      ⟨e, u, hx, hu, hb⟩ | ⟨x, u, hx, hu, hb, hsafe⟩
    · exact .failed e u (Action.bind_error hx _) hu hb (Action.argument_run_error hopen hx _)
    · have hkeys := Table.keys_insert_eq_addTo (t.keying_marks hu) (keyed hu hb) hsafe
      refine .changed (.add x) u _ (Action.bind_ok hx _) hu hb ((keyed hu hb).insert hsafe ()) hkeys
        nofun ?_
      rw [Action.setStep_add_run ho hx, found hu hb hsafe]
      rfl
  | contains _ l =>
    cases hc
    rcases (Action.element_ensures hs t l).error_or_ok with
      ⟨e, u, hx, hu, hb⟩ | ⟨x, u, hx, hu, hb, hsafe⟩
    · exact .failed e u (Action.bind_error hx _) hu hb (Action.argument_run_error hopen hx _)
    · refine .answered (.contains x) u (Action.bind_ok hx _) hu hb (.inl ⟨x, rfl⟩) ?_
      rw [Action.setStep_contains_run ho hx, found hu hb hsafe]
      rfl
  | remove _ l =>
    cases hc
    rcases (Action.element_ensures hs t l).error_or_ok with
      ⟨e, u, hx, hu, hb⟩ | ⟨x, u, hx, hu, hb, hsafe⟩
    · exact .failed e u (Action.bind_error hx _) hu hb (Action.argument_run_error hopen hx _)
    · have hkeys := Table.keys_erase (t.keying_marks hu) (keyed hu hb) hsafe
      refine .changed (.remove x) u _ (Action.bind_ok hx _) hu hb ((keyed hu hb).erase x) hkeys
        nofun ?_
      rw [Action.setStep_remove_run ho hx, found hu hb hsafe]
      rfl
  | union _ source =>
    cases hc
    rcases (Action.elementsOf_ensures hs t source).error_or_ok with
      ⟨e, u, hx, hu, hb⟩ | ⟨ys, u, hx, hu, hb, hsafe⟩
    · exact .failed e u (Action.bind_error hx _) hu hb (Action.argument_run_error hopen hx _)
    · have hkeys : (Table.insertAll (t.keying u.store) ss ys).map Slot.key =
          SetCall.apply (t.same u.store) (ss.map Slot.key) (.union ys) :=
        Table.keys_insertAll (t.keying_marks hu) (keyed hu hb) hsafe
      refine .changed (.union ys) u _ (Action.bind_ok hx _) hu hb ((keyed hu hb).insertAll hsafe)
        hkeys nofun ?_
      rw [Action.setStep_union_run ho hx, SetCall.answer, ← hkeys, List.length_map]
  | intersect _ source =>
    cases hc
    rcases (Action.elementsOf_ensures hs t source).error_or_ok with
      ⟨e, u, hx, hu, hb⟩ | ⟨ys, u, hx, hu, hb, hsafe⟩
    · exact .failed e u (Action.bind_error hx _) hu hb (Action.argument_run_error hopen hx _)
    · have hkeys : (Table.retain (t.keying u.store) ss ys).map Slot.key =
          SetCall.apply (t.same u.store) (ss.map Slot.key) (.intersect ys) :=
        Table.keys_retain (t.keying_marks hu) (keyed hu hb) hsafe
      have hcommon : ∀ x ∈ (Table.retain (t.keying u.store) ss ys).map Slot.key,
          t.same u.store x x = true := by
        intro x hx
        rw [hkeys] at hx
        obtain ⟨hm, hany⟩ := List.mem_filter.mp hx
        obtain ⟨y, hy, hxy⟩ := List.any_eq_true.mp hany
        obtain ⟨e, he, rfl⟩ := List.mem_map.mp hm
        have hsx := (keyed hu hb e he).key
        rw [t.same_iff_mark hu _ _ hsx (hsafe y hy)] at hxy
        exact (t.same_iff_mark hu _ _ hsx hsx).mpr ⟨hxy.1, rfl⟩
      refine .changed (.intersect ys) u _ (Action.bind_ok hx _) hu hb ((keyed hu hb).retain ys)
        hkeys (fun _ _ => hcommon) ?_
      rw [Action.setStep_intersect_run ho hx, SetCall.answer, ← hkeys, List.length_map]
  | count _ =>
    cases hc
    refine .answered .count s rfl hs (.refl s) (.inr rfl) ?_
    rw [Action.setStep_count_run ho, SetCall.answer, List.length_map]
  | clear _ =>
    cases hc
    exact .changed .clear s [] rfl hs (.refl s) Table.keyed_nil rfl
      nofun (Action.setStep_clear_run ho)
  | new | toVec => cases hc

variable {u : Session} {r : Result Answer} {ss' : List (Slot t.Value Unit)} {xs ys : List t.Value}

theorem HasElements.unique (hx : s.HasElements id t xs) (hy : s.HasElements id t ys) : xs = ys := by
  obtain ⟨ss, hc, rfl⟩ := hx
  obtain ⟨ss', hc', rfl⟩ := hy
  cases hc.symm.trans hc'
  rfl

theorem Opened.hasElements_of_run (ho : u.Opened h (some id) (.hashSet t ss)) (hu : u.Sound)
    (hrun : Action.setStep step s = (r, u)) :
    (s.advance (.set step)).2.HasElements id t (ss.map Slot.key) :=
  ⟨ss, ho.contents?_of_run hu (.set step) hrun, rfl⟩

theorem Opened.hasElements_of_replaces (ho : u.Opened h (some id) (.hashSet t ss)) (hu : u.Sound)
    (hk : u.store.Keyed t ss')
    (hrun : Action.setStep step s = (r, u.mapRealm (·.replace id (.hashSet t ss')))) :
    (s.advance (.set step)).2.HasElements id t (ss'.map Slot.key) := by
  have hx : u.store.SafeAll (Contents.hashSet t ss').owned :=
    Store.safeAll_hashSet.mpr fun e he => ⟨(hk e he).key, trivial⟩
  exact ⟨ss', ho.contents?_of_replaces (x := .hashSet t ss') hu rfl hx (.set step) hrun, rfl⟩

theorem setCall?_eq_some {step : Step} (hc : step.setCall? s id t = some a) :
    ∃ h step', step = .set step' ∧ step'.call? t = some (h, a) ∧ s.handle h = .object id := by
  cases step with
  | set step' =>
    obtain ⟨h, hcall, hid⟩ := call_eq_some_iff.mp hc
    exact ⟨h, step', rfl, hcall, hid⟩
  | _ => cases hc

/-- A step that does not call a set does not change it. -/
theorem not_scope_of_setCall?_eq_none {step : Step} (hc : step.setCall? s id t = none) :
    ¬ (step.scope s).objects id (.collection (.hashSet t ss)) := by
  intro hw
  cases step with
  | set step =>
    obtain ⟨h, hname, hid⟩ := Option.map_eq_some_iff.mp hw.1
    cases step with
    | new | contains | count | toVec => cases hname
    | _ =>
      cases hname
      exact absurd hc (by simp [Step.setCall?, SetStep.call?, hid])
  | dictionary step =>
    obtain ⟨-, k, v, ss', hb⟩ := hw
    cases hb
  | list step =>
    obtain ⟨-, t', xs, hb⟩ := hw
    cases hb
  | queue step =>
    obtain ⟨-, t', xs, hb⟩ := hw
    cases hb
  | handle | type | enumeration | activator => exact hw.elim

theorem Settled.searches (hs : s.Settled)
    (hx : s.store.contents? (.object id) = some (.hashSet t ss)) (hk : s.store.Keyed t ss)
    (hd : Entry.Distinct (s.store.entries t ss)) : s.Searches id t (ss.map Slot.key) where
  distinct := hk.distinct hs.sound hd
  answer step a c u hc hrun := by
    obtain ⟨h, step, rfl, hcall, hid⟩ := setCall?_eq_some hc
    have ho : s.Opened h (some id) (.hashSet t ss) := ⟨hid, hx⟩
    cases hs.sound.called ho hk hcall with
    | failed e u' run => cases run.symm.trans hrun
    | answered c' u' run sound builds reads ends =>
      cases run.symm.trans hrun
      have hsame : c.apply (t.same u.store) (ss.map Slot.key) = ss.map Slot.key := by
        rcases reads with ⟨x, rfl⟩ | rfl <;> rfl
      rw [hsame]
      exact ⟨outcome_advance (.set step) ends, (ho.mono builds).hasElements_of_run sound ends⟩
    | changed c' u' ss' run sound builds keyed keys common ends =>
      cases run.symm.trans hrun
      rw [← keys]
      exact ⟨outcome_advance (.set step) ends,
        (ho.mono builds).hasElements_of_replaces sound keyed ends⟩
  error step a e u hc hrun := by
    obtain ⟨h, step, rfl, hcall, hid⟩ := setCall?_eq_some hc
    have ho : s.Opened h (some id) (.hashSet t ss) := ⟨hid, hx⟩
    cases hs.sound.called ho hk hcall with
    | failed e' u' run sound builds ends =>
      cases run.symm.trans hrun
      exact ⟨outcome_advance (.set step) ends, (ho.mono builds).hasElements_of_run sound ends⟩
    | answered c u' run => cases run.symm.trans hrun
    | changed c u' ss' run => cases run.symm.trans hrun
  releases step a hc hsame j := by
    obtain ⟨h, step, rfl, hcall, hid⟩ := setCall?_eq_some hc
    have ho : s.Opened h (some id) (.hashSet t ss) := ⟨hid, hx⟩
    cases hs.sound.called ho hk hcall with
    | failed e u run sound builds ends | answered c u run sound builds reads ends =>
      rw [advance_eq_endStep (.set step) ends]
      exact hs.refs_endStep sound builds j
    | changed c u ss' run sound builds keyed keys common ends =>
      have hkeys := ((ho.mono builds).hasElements_of_replaces sound keyed ends).unique hsame
      have hkeyed := (hk.of_grows builds.store hs.sound sound).1
      rw [advance_eq_endStep (.set step) ends, keyed.eq_of_keys_eq hkeyed hkeys]
      exact hs.refs_replace_endStep sound builds hx rfl rfl j
  common step a ys u hc hrun x hm := by
    obtain ⟨h, step, rfl, hcall, hid⟩ := setCall?_eq_some hc
    cases hs.sound.called ⟨hid, hx⟩ hk hcall with
    | failed e u' run => cases run.symm.trans hrun
    | answered c' u' run sound builds reads =>
      cases run.symm.trans hrun
      rcases reads with ⟨x, hc⟩ | hc <;> cases hc
    | changed c' u' ss' run sound builds keyed keys common =>
      cases run.symm.trans hrun
      exact common ys rfl x (keys ▸ hm)
  others step hc hl := by
    obtain ⟨hs', hp⟩ := advance_settled hs step
    obtain ⟨x, ht, hkind⟩ := contents?_of_isLive hp hx hl
    obtain ⟨ss', rfl⟩ := (TableType.hashSet t).contents_of_kind hkind
    have heq := hs.sound.contents?_eq_of_not_scope hx ht (not_scope_of_setCall?_eq_none hc)
    cases heq
    exact ⟨ss, ht, rfl⟩

/-! Searched lists over whole runs. -/

variable {es : List (Entry t.Value Unit)}

theorem Tabulates.hasElements (h : s.Tabulates id (.hashSet t) es) :
    s.HasElements id t (es.map Entry.key) := by
  obtain ⟨ss, hc, -, rfl⟩ := h
  exact ⟨ss, hc, (s.store.keys_entries t ss).symm⟩

theorem Settled.searches_of_tabulates (hs : s.Settled) (h : s.Tabulates id (.hashSet t) es)
    (hd : Entry.Distinct es) : s.Searches id t (es.map Entry.key) := by
  obtain ⟨ss, hc, hk, rfl⟩ := h
  exact (s.store.keys_entries t ss).symm ▸ hs.searches hc hk hd

theorem Searches.search (h : s.Searches id t xs) (step : Step)
    (hl : (s.advance step).2.store.IsLive id) :
    (s.advance step).2.HasElements id t (step.search s id t xs) := by
  unfold Step.search
  split
  · next hc => exact h.others step hc hl
  · next a hc =>
    split
    · next c u hrun => exact (h.answer step a c u hc hrun).2
    · next e u hrun => exact (h.error step a e u hc hrun).2

/-- A set has after some steps the elements that the searched list has. -/
theorem Settled.search_advanceAll (hs : s.Settled) (steps : List Step)
    (h : s.Tabulates id (.hashSet t) es) (hd : Entry.Distinct es)
    (hx : (s.advanceAll steps).2.HasElements id t xs) :
    xs = search id t s (es.map Entry.key) steps := by
  induction steps generalizing s es with
  | nil => exact hx.unique h.hasElements
  | cons step steps ih =>
    obtain ⟨hs', hp⟩ := advance_settled hs step
    have ⟨ss, hc, _⟩ := hx
    obtain ⟨ss', hc'⟩ := hs.contents?_advance (τ := .hashSet t)
      (Nat.lt_of_lt_of_le h.lt_size hp.size_le) hc
    have hnext := hs.tabulates_advance (τ := .hashSet t) step h hc'
    obtain ⟨d, hd', -⟩ := Store.contents?_object.mp hc'
    have hsearch := (hs.searches_of_tabulates h hd).search step ⟨d, hd'⟩
    rw [Session.search, ← hnext.hasElements.unique hsearch]
    exact ih hs' hnext (Edit.distinct_applyAll hd _) hx

/-- So has a set that was made in the course of the steps. -/
theorem Settled.search_advanceAll_of_size_le (hs : s.Settled) (steps : List Step)
    (hge : s.store.cells.size ≤ id) (hx : (s.advanceAll steps).2.HasElements id t xs) :
    xs = search id t s [] steps := by
  induction steps generalizing s with
  | nil =>
    obtain ⟨ss, hc, -⟩ := hx
    obtain ⟨d, hd, -⟩ := Store.contents?_object.mp hc
    exact absurd (Store.lt_size_of_find? hd) (Nat.not_lt.mpr hge)
  | cons step steps ih =>
    obtain ⟨hs', -⟩ := advance_settled hs step
    -- No name points to the set yet, so that the step is no call of it.
    have hnone : step.setCall? s id t = none := by
      rw [Option.eq_none_iff_forall_ne_some]
      intro a hc
      obtain ⟨h, step', -, -, hid⟩ := setCall?_eq_some hc
      exact absurd (hid ▸ hs.sound.safe_handle h).isLive.lt_size (Nat.not_lt.mpr hge)
    have hsearch : step.search s id t [] = [] := by rw [Step.search, hnone]
    rw [Session.search, hsearch]
    by_cases hge' : (s.advance step).2.store.cells.size ≤ id
    · exact ih hs' hge' hx
    · have ⟨ss, hc, _⟩ := hx
      obtain ⟨ss', hc'⟩ := hs.contents?_advance (τ := .hashSet t) (Nat.lt_of_not_le hge') hc
      have hnew := hs.tabulates_advance_of_size_le (τ := .hashSet t) step hge hc'
      exact hs'.search_advanceAll steps hnew List.Pairwise.nil hx

/-- A set has the elements that the list has which went through the same calls and was searched in
place of it, and goes on as that list does. -/
theorem run_searches (steps : List Step) (hx : (start.advanceAll steps).2.HasElements id t xs) :
    xs = search id t start [] steps ∧ (start.advanceAll steps).2.Searches id t xs := by
  refine ⟨start_settled.search_advanceAll_of_size_le steps (Nat.zero_le id) hx, ?_⟩
  have ⟨ss, hc, _⟩ := hx
  have htable := (run_records (τ := .hashSet t) steps hc).tabulates
  rw [hx.unique htable.hasElements]
  refine (run_settled steps).searches_of_tabulates htable ?_
  exact Edit.distinct_applyAll List.Pairwise.nil _

/-- Zero is added to a set under two names for it. -/
theorem run_searches_added_twice :
    ∃ steps, (start.advanceAll steps).2.HasElements 0 (.scalar .int) [0] ∧
      [0] = search 0 (.scalar .int) start [] steps ∧
        (start.advanceAll steps).2.Searches 0 (.scalar .int) [0] := by
  have hx : (start.advanceAll
      [.set (.new "s" (.scalar .int)), .handle (.copy "t" "s"), .set (.add "s" (.scalar (.int 0))),
        .set (.add "t" (.scalar (.int 0)))]).2.HasElements 0 (.scalar .int) [0] :=
    ⟨[⟨0, (0 : Int32), ()⟩], by decide +kernel, rfl⟩
  exact ⟨_, hx, run_searches _ hx⟩

end Session

end CountedObjects
