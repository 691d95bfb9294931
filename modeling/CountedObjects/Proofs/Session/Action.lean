import CountedObjects.Proofs.Session.State
import CountedObjects.Session.Handles

/-! What an action ensures from a state: it ends, in success or failure, in a sound state that
follows on the first one, and its result has a property in that state. -/
namespace CountedObjects.Action

open Session (Leads Builds)

variable {α β : Type} {a : Action α} {f : α → Action β} {s t : Session} {x : α} {e : Fault}
  {R R₁ : Session → Session → Prop} {P : α → Session → Prop} {Q : β → Session → Prop}
  {scope : Scope}

structure Ensures (R : Session → Session → Prop) (a : Action α) (s : Session)
    (Q : α → Session → Prop) : Prop where
  sound : (a s).2.Sound
  follows : R s (a s).2
  result : ∀ x, (a s).1 = .ok x → Q x (a s).2

/-- An action that leaves the state alone. -/
def Reads (a : Action α) : Prop := ∀ s, (a s).2 = s

theorem bind_ok (h : a s = (.ok x, t)) (f : α → Action β) : (a >>= f) s = f x t := by
  show (ExceptT.bind a f) s = _
  simp only [ExceptT.bind, ExceptT.mk, bind, StateT.bind, h]
  rfl

theorem bind_error (h : a s = (.error e, t)) (f : α → Action β) :
    (a >>= f) s = (.error e, t) := by
  show (ExceptT.bind a f) s = _
  simp only [ExceptT.bind, ExceptT.mk, bind, StateT.bind, h]
  rfl

theorem get_run (s : Session) : (get : Action Session) s = (.ok s, s) := rfl

theorem ask_run (g : Session → α) (s : Session) : ask g s = (.ok (g s), s) := rfl

theorem query_run (g : Store → Result α) (s : Session) : query g s = (g s.store, s) := by
  show ofResult (g s.store) s = _
  cases g s.store <;> rfl

theorem convert_run (k : Option Kind) (g : Store → Result α) (s : Session) :
    convert k g s = (g s.store, s.mapRealm (·.converting k (g s.store))) := by
  unfold convert
  rw [bind_ok (get_run s)]
  cases g s.store <;> rfl

/-- A conversion that succeeds leaves the state alone. -/
theorem convert_run_ok {g : Store → Result α} (h : g s.store = .ok x) (k : Option Kind) :
    convert k g s = (.ok x, s) := by
  rw [convert_run, h]
  rfl

namespace Ensures

theorem pure [Std.Refl R] {Q : α → Session → Prop} (hs : s.Sound) (hx : Q x s) :
    Ensures R (pure x) s Q :=
  ⟨hs, Std.Refl.refl s, fun y hy => by cases hy; exact hx⟩

theorem throw [Std.Refl R] (hs : s.Sound) (e : Fault) : Ensures R (throw e) s Q :=
  ⟨hs, Std.Refl.refl s, fun _ hy => by cases hy⟩

theorem bind [Std.Refl R] [Trans R₁ R R] (ha : Ensures R₁ a s P)
    (hf : ∀ x t, t.Sound → R₁ s t → P x t → Ensures R (f x) t Q) : Ensures R (a >>= f) s Q := by
  obtain ⟨hs, hr, hp⟩ := ha
  cases hrun : a s with
  | mk r t =>
    rw [hrun] at hs hr hp
    cases r with
    | error e =>
      have hrt : R s t := Trans.trans hr (Std.Refl.refl t : R t t)
      refine ⟨?_, ?_, ?_⟩ <;> rw [bind_error hrun f]
      · exact hs
      · exact hrt
      · intro y hy
        cases hy
    | ok x =>
      have hx := hf x t hs hr (hp x rfl)
      refine ⟨?_, ?_, ?_⟩ <;> rw [bind_ok hrun f]
      · exact hx.sound
      · exact Trans.trans hr hx.follows
      · exact hx.result

/-- Two parts of an action that are alike in what they may do. -/
theorem andThen [Std.Refl R] [Trans R R R] (ha : Ensures R a s P)
    (hf : ∀ x t, t.Sound → R s t → P x t → Ensures R (f x) t Q) : Ensures R (a >>= f) s Q :=
  ha.bind hf

/-- To build objects is within every scope. -/
theorem leads (ha : Ensures Builds a s P) : Ensures (Leads scope) a s P :=
  ⟨ha.sound, ha.follows.leads, ha.result⟩

theorem error_or_ok (ha : Ensures R a s P) :
    (∃ e t, a s = (.error e, t) ∧ t.Sound ∧ R s t) ∨
      ∃ x t, a s = (.ok x, t) ∧ t.Sound ∧ R s t ∧ P x t := by
  obtain ⟨hs, hr, hp⟩ := ha
  cases hrun : a s with
  | mk r t =>
    rw [hrun] at hs hr hp
    cases r with
    | error e => exact .inl ⟨e, t, rfl, hs, hr⟩
    | ok x => exact .inr ⟨x, t, rfl, hs, hr, hp x rfl⟩

/-- Only what an action does from this state matters. -/
theorem of_run {b : Action α} (ha : Ensures R a s P) (h : b s = a s) : Ensures R b s P :=
  ⟨by rw [h]; exact ha.sound, by rw [h]; exact ha.follows, by rw [h]; exact ha.result⟩

theorem mono {P' : α → Session → Prop} (ha : Ensures R a s P) (hp : ∀ x t, P x t → P' x t) :
    Ensures R a s P' :=
  ⟨ha.sound, ha.follows, fun x hx => hp x _ (ha.result x hx)⟩

theorem mono_sound {P' : α → Session → Prop} (ha : Ensures R a s P)
    (hp : ∀ x t, t.Sound → P x t → P' x t) : Ensures R a s P' :=
  ⟨ha.sound, ha.follows, fun x hx => hp x _ ha.sound (ha.result x hx)⟩

/-- A step whose answer is read off what it got does no more than what got it. -/
theorem map [Std.Refl R] [Trans R R R] (ha : Ensures R a s P) (g : α → β) :
    Ensures R (do return g (← a)) s fun _ _ => True :=
  ha.bind fun _ _ ht _ _ => .pure ht trivial

end Ensures

namespace Reads

theorem pure (x : α) : Reads (pure x) := fun _ => rfl

theorem throw (e : Fault) : Reads (throw e : Action α) := fun _ => rfl

theorem ask (g : Session → α) : Reads (ask g) := fun _ => rfl

theorem query (g : Store → Result α) : Reads (query g) := fun s => by rw [query_run]

theorem ofResult (r : Result α) : Reads (ofResult r) := fun _ => by cases r <;> rfl

theorem bind (ha : Reads a) (hf : ∀ x, Reads (f x)) : Reads (a >>= f) := fun s => by
  have h := ha s
  cases hrun : a s with
  | mk r t =>
    rw [hrun] at h
    cases r with
    | error e => rw [bind_error hrun f]; exact h
    | ok x => rw [bind_ok hrun f, hf x t]; exact h

theorem ensures [Std.Refl R] (ha : Reads a) (hs : s.Sound) :
    Ensures R a s fun x t => (a s).1 = .ok x ∧ t = s := by
  have h := ha s
  refine ⟨by rwa [h], by rw [h]; exact Std.Refl.refl s, fun x hx => ⟨hx, h⟩⟩

end Reads

namespace Ensures

/-- What was read is known of the state that is left alone. -/
theorem bind_reads [Std.Refl R] [Trans R R R] (hs : s.Sound) (ha : Reads a)
    (hf : ∀ x, (a s).1 = .ok x → Ensures R (f x) s Q) : Ensures R (a >>= f) s Q :=
  (ha.ensures (R := R) hs).bind fun x _ _ _ hx => hx.2 ▸ hf x hx.1

theorem reads [Std.Refl R] (hs : s.Sound) (ha : Reads a) : Ensures R a s fun _ _ => True :=
  (ha.ensures hs).mono fun _ _ _ => trivial

theorem ask {g : Session → α} (h : Ensures R (f (g s)) s Q) : Ensures R (ask g >>= f) s Q :=
  h.of_run rfl

theorem ofResult [Std.Refl R] [Trans R R R] {r : Result α} (hs : s.Sound)
    (hf : ∀ x, r = .ok x → Ensures R (f x) s Q) : Ensures R (ofResult r >>= f) s Q :=
  bind_reads hs (.ofResult r) fun x hx => hf x (by cases r <;> cases hx; rfl)

theorem ofObject [Std.Refl R] [Trans R R R] {r : Except ObjectError α} (hs : s.Sound)
    (hf : ∀ x, r = .ok x → Ensures R (f x) s Q) : Ensures R (ofObject r >>= f) s Q :=
  ofResult hs fun x hx => hf x (by cases r <;> cases hx; rfl)

theorem query [Std.Refl R] [Trans R R R] {g : Store → Result α} (hs : s.Sound)
    (hf : ∀ x, g s.store = .ok x → Ensures R (f x) s Q) : Ensures R (query g >>= f) s Q :=
  (ofResult hs hf).of_run rfl

/-- A question that ends an action. -/
theorem answer [Std.Refl R] {g : Store → Result α} (hs : s.Sound)
    (hp : ∀ x, g s.store = .ok x → P x s) : Ensures R (Action.query g) s P := by
  refine ⟨?_, ?_, ?_⟩ <;> rw [query_run]
  · exact hs
  · exact Std.Refl.refl s
  · exact hp

theorem get {g : Session → Action α} {Q : α → Session → Prop} (h : Ensures R (g s) s Q) :
    Ensures R (get >>= g) s Q :=
  h.of_run rfl

theorem set (ht : t.Sound) (hr : R s t) : Ensures R (set t) s fun _ u => u = t :=
  ⟨ht, hr, fun _ _ => rfl⟩

theorem change {g : Session → Session} (ht : (g s).Sound) (hr : R s (g s)) :
    Ensures R (change g) s fun _ u => u = g s :=
  ⟨ht, hr, fun _ _ => rfl⟩

/-- Along a list, where a result keeps its property in the states that follow. -/
theorem mapM [Std.Refl R] [Trans R R R] {xs : List α} {Q : β → Session → Prop} (hs : s.Sound)
    (hQ : ∀ y t u, R t u → Q y t → Q y u)
    (hf : ∀ x ∈ xs, ∀ t, t.Sound → R s t → Ensures R (f x) t Q) :
    Ensures R (xs.mapM f) s fun ys t => ∀ y ∈ ys, Q y t := by
  induction xs generalizing s with
  | nil => exact .pure hs (List.forall_mem_nil _)
  | cons x xs ih =>
    rw [List.mapM_cons]
    refine (hf x (List.mem_cons_self ..) s hs (Std.Refl.refl s)).bind fun y t ht hr hy => ?_
    refine (ih ht fun x hx u hu hr' => ?_).bind fun ys u hu hr' hys => .pure hu ?_
    · exact hf x (List.mem_cons_of_mem _ hx) u hu (Trans.trans hr hr')
    · exact List.forall_mem_cons.mpr ⟨hQ y t u hr' hy, hys⟩

end Ensures

end CountedObjects.Action
