import CountedObjects.Proofs.Session.Run

/-! What collections hold after a step. A collection that a name points to holds what the step gave
it, and what no step changes is as it was. -/
namespace CountedObjects.Session

variable {s t u : Session} {h : String} {id : Nat} {c x : Contents}

theorem precedes_endStep (s : Session) : s.store.Precedes s.endStep.store :=
  Store.precedes_releaseAll _ _

theorem precedes_replace (s : Session) (id : Nat) (x : Contents) :
    s.store.Precedes (s.mapRealm (·.replace id x)).store := by
  have hr : s.store.Spares (fun _ _ => True) (s.store.replace id x) := .replace s.store trivial
  exact hr.toPrecedes

theorem endStep_handle (s : Session) (name : String) : s.endStep.handle name = s.handle name := rfl

/-- The end of a step takes nothing from a collection that a name points to. -/
theorem Opened.contents?_endStep (ho : s.Opened h (some id) c) (hs : s.Sound) :
    s.endStep.store.contents? (.object id) = some c := by
  have hsafe : s.endStep.store.Safe (.object id) := by
    rw [← ho.1, ← s.endStep_handle h]
    exact (endStep_sound hs).safe_handle h
  exact (spares_endStep s).contents?_of_isLive ho.2 hsafe.isLive

/-- A collection that a name points to holds what it was given when the step ends. -/
theorem Opened.contents?_replace_endStep (ho : s.Opened h (some id) c) (hs : s.Sound)
    (hk : c.kind = x.kind) (hx : s.store.SafeAll x.owned) :
    (s.mapRealm (·.replace id x)).endStep.store.contents? (.object id) = some x := by
  have hr : (s.mapRealm (·.replace id x)).Sound := Store.Sound.replace hs hx id
  have hopened : (s.mapRealm (·.replace id x)).Opened h (some id) x :=
    ⟨ho.1, ho.contents?_replace hs hk hx⟩
  exact hopened.contents?_endStep hr

/-- What a step leaves that ends in a state with a collection as it is. -/
theorem Opened.contents?_of_run {r : Result Answer} (ho : u.Opened h (some id) c) (hu : u.Sound)
    (step : Step) (hrun : Action.step step s = (r, u)) :
    (s.advance step).2.store.contents? (.object id) = some c := by
  rw [advance_eq_endStep step hrun]
  exact ho.contents?_endStep hu

/-- What a step leaves that ends with a change of a collection. -/
theorem Opened.contents?_of_replaces {r : Result Answer} (ho : u.Opened h (some id) c)
    (hu : u.Sound) (hk : c.kind = x.kind) (hx : u.store.SafeAll x.owned) (step : Step)
    (hrun : Action.step step s = (r, u.mapRealm (·.replace id x))) :
    (s.advance step).2.store.contents? (.object id) = some x := by
  rw [advance_eq_endStep step hrun]
  exact ho.contents?_replace_endStep hu hk hx

/-- A collection after a step was changed by it, or held the same before, or is new and empty. -/
theorem Sound.contents?_of_advance (hs : s.Sound) (step : Step)
    (ht : (s.advance step).2.store.contents? (.object id) = some c) :
    (step.scope s).objects id (.collection c) ∨ s.store.contents? (.object id) = some c ∨
      s.store.cells.size ≤ id ∧ c.count = 0 := by
  obtain ⟨d, hd, hb⟩ := Store.contents?_object.mp ht
  rcases (advance_spares hs step).spared id d hd with hw | ⟨c', hc', hcd⟩ | ⟨hge, hbare⟩
  · exact .inl (hb ▸ hw)
  · exact .inr (.inl (Store.contents?_object.mpr ⟨c', hc', hcd.body.symm.trans hb⟩))
  · rw [hb] at hbare
    exact .inr (.inr ⟨hge, hbare⟩)

/-- A collection holds after a step what it held before, unless the step may change it. -/
theorem Sound.contents?_eq_of_not_scope (hs : s.Sound) {step : Step}
    (hc : s.store.contents? (.object id) = some c)
    (ht : (s.advance step).2.store.contents? (.object id) = some x)
    (hn : ¬ (step.scope s).objects id (.collection x)) : x = c := by
  rcases hs.contents?_of_advance step ht with hw | hx | ⟨hge, -⟩
  · exact absurd hw hn
  · exact Option.some.inj (hx.symm.trans hc)
  · obtain ⟨d, hd, -⟩ := Store.contents?_object.mp hc
    exact absurd (Store.lt_size_of_find? hd) (Nat.not_lt.mpr hge)

/-- A collection stays one of its kind while it lives. -/
theorem contents?_of_isLive (h : s.store.Precedes t.store)
    (hc : s.store.contents? (.object id) = some c) (hl : t.store.IsLive id) :
    ∃ x, t.store.contents? (.object id) = some x ∧ c.kind = x.kind := by
  obtain ⟨d, hd⟩ := hl
  obtain ⟨b, hb, hcb⟩ := Store.contents?_object.mp hc
  obtain ⟨b', hb', hbd⟩ := h.cell id d (Store.lt_size_of_find? hb) hd
  cases hb.symm.trans hb'
  have hbody := hbd.body
  rw [hcb] at hbody
  generalize hy : d.body = y at hbody
  cases hbody with
  | refl => exact ⟨c, Store.contents?_object.mpr ⟨d, hd, hy⟩, rfl⟩
  | contents hk => exact ⟨_, Store.contents?_object.mpr ⟨d, hd, hy⟩, hk.symm⟩

/-- A collection is there after a step, if it lives, as it was when the step went on to change no
other. -/
theorem contents?_of_leads (step : Step) (hu : u.store.contents? (.object id) = some c)
    (hl : Leads .nothing u (Action.step step s).2) (hlive : (s.advance step).2.store.IsLive id) :
    (s.advance step).2.store.contents? (.object id) = some c := by
  have hspares : u.store.Spares (fun _ _ => False) (s.advance step).2.store :=
    hl.store.trans (spares_endStep _)
  exact hspares.contents?_of_isLive hu hlive

/-- A collection is after a step, if it lives, as it was before one that changes none of its
kind. -/
theorem Settled.contents?_of_not_scope (hs : s.Settled) {step : Step}
    (hc : s.store.contents? (.object id) = some c) (hl : (s.advance step).2.store.IsLive id)
    (hn : ∀ x, c.kind = x.kind → ¬ (step.scope s).objects id (.collection x)) :
    (s.advance step).2.store.contents? (.object id) = some c := by
  obtain ⟨-, hp⟩ := advance_settled hs step
  obtain ⟨x, ht, hkind⟩ := contents?_of_isLive hp hc hl
  have heq := hs.sound.contents?_eq_of_not_scope hc ht (hn x hkind)
  exact heq ▸ ht

/-- The call that a step makes of the object with a number, under whatever name. -/
theorem call_eq_some_iff {γ : Type} {call : Option (String × γ)} {a : γ} :
    (call.bind fun p => if s.handle p.1 = .object id then some p.2 else none) = some a ↔
      ∃ h, call = some (h, a) ∧ s.handle h = .object id := by
  constructor
  · intro hc
    obtain ⟨⟨h, a'⟩, hcall, ha⟩ := Option.bind_eq_some_iff.mp hc
    by_cases hid : s.handle h = .object id
    · rw [if_pos hid] at ha
      cases ha
      exact ⟨h, hcall, hid⟩
    · rw [if_neg hid] at ha
      cases ha
  · rintro ⟨h, rfl, hid⟩
    exact if_pos hid

end CountedObjects.Session

namespace CountedObjects.Action

/-! How the steps on collections begin: a collection is opened, and an argument may be built. -/

variable {β O : Type} {s u : Session} {op : Action O} {id? : O → Option Nat} {o : O} {id : Nat}

theorem opened_run (ho : op s = (.ok o, s)) (hid : id? o = some id) (f : O → Nat → Action β) :
    (do let o ← op; f o (← demandId (id? o))) s = f o id s := by
  rw [bind_ok ho, hid]
  rfl

variable {ρ : O → Type} {a : (o : O) → Action (ρ o)} {y : ρ o} {e : Fault}

theorem argument_run (ho : op s = (.ok o, s)) (hid : id? o = some id) (ha : a o s = (.ok y, u))
    (f : (o : O) → ρ o → Nat → Action β) :
    (do let o ← op; let x ← a o; f o x (← demandId (id? o))) s = f o y id u := by
  rw [bind_ok ho, bind_ok ha, hid]
  rfl

theorem argument_run_error (ho : op s = (.ok o, s)) (ha : a o s = (.error e, u))
    (f : (o : O) → ρ o → Action β) :
    (do let o ← op; let x ← a o; f o x) s = (.error e, u) := by
  rw [bind_ok ho, bind_error ha]

end CountedObjects.Action
