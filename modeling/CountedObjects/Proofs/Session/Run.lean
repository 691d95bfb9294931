import CountedObjects.Proofs.Session.Tables
import CountedObjects.Proofs.Session.Types
import CountedObjects.Session.Run

/-! Sessions are sound at the start and after every step, and a step changes only what is in its
scope. -/
namespace CountedObjects

/-- What a step may change in a state. -/
def Step.scope (s : Session) : Step → Scope
  | .handle step => step.scope
  | .list step => step.scope s
  | .queue step => step.scope s
  | .set step => step.scope s
  | .dictionary step => step.scope s
  | .type _ | .enumeration _ | .activator _ => .nothing

open Session (Leads)

theorem Action.step_ensures {s : Session} (hs : s.Sound) (step : Step) :
    Ensures (Leads (step.scope s)) (Action.step step) s fun _ _ => True := by
  cases step with
  | handle step => exact handleStep_ensures hs step
  | type step => exact typeStep_ensures hs step
  | enumeration step => exact enumStep_ensures hs step
  | activator step => exact activatorStep_ensures hs step
  | list step => exact listStep_ensures hs step
  | queue step => exact queueStep_ensures hs step
  | set step => exact setStep_ensures hs step
  | dictionary step => exact dictionaryStep_ensures hs step

namespace Session

variable {s u : Session} {r : Result Answer}

/-- A state that a session is in before or after a step: sound, and nothing is held by a step. -/
structure Settled (s : Session) : Prop where
  sound : s.Sound
  held : s.held = []

theorem outcome_advance (step : Step) (h : Action.step step s = (r, u)) :
    (s.advance step).1.outcome = r :=
  congrArg Prod.fst h

theorem advance_eq_endStep (step : Step) (h : Action.step step s = (r, u)) :
    (s.advance step).2 = u.endStep :=
  congrArg (fun p => p.2.endStep) h

theorem advance_spares (hs : s.Sound) (step : Step) :
    s.store.Spares (step.scope s).objects (s.advance step).2.store :=
  (Action.step_ensures hs step).follows.store.trans (spares_endStep _)

theorem advance_enumerators (hs : s.Sound) (step : Step) {e : String}
    (he : ¬ (step.scope s).enumerators e) :
    (s.advance step).2.enumerators.lookup e = s.enumerators.lookup e :=
  (Action.step_ensures hs step).follows.enumerators e he

theorem advance_settled (hs : s.Settled) (step : Step) :
    (s.advance step).2.Settled ∧ s.store.Precedes (s.advance step).2.store := by
  refine ⟨⟨?_, rfl⟩, (advance_spares hs.sound step).toPrecedes⟩
  exact endStep_sound (Action.step_ensures hs.sound step).sound

theorem advanceAll_settled (hs : s.Settled) (steps : List Step) :
    (s.advanceAll steps).2.Settled := by
  induction steps generalizing s with
  | nil => exact hs
  | cons step steps ih => exact ih (advance_settled hs step).1

theorem precedes_advanceAll (hs : s.Settled) (steps : List Step) :
    s.store.Precedes (s.advanceAll steps).2.store := by
  induction steps generalizing s with
  | nil => exact .refl _
  | cons step steps ih =>
    obtain ⟨hs', hp⟩ := advance_settled hs step
    exact hp.trans (ih hs')

/-- No object comes back to life. -/
theorem isLive_advance_of_advanceAll (hs : s.Settled) {step : Step} {steps : List Step} {id : Nat}
    (hid : s.store.IsLive id) (hl : (s.advanceAll (step :: steps)).2.store.IsLive id) :
    (s.advance step).2.store.IsLive id := by
  obtain ⟨hs', hp⟩ := advance_settled hs step
  obtain ⟨d, hd⟩ := hl
  have hlt := Nat.lt_of_lt_of_le hid.lt_size hp.size_le
  obtain ⟨c, hc, -⟩ := (precedes_advanceAll hs' steps).cell id d hlt hd
  exact ⟨c, hc⟩

theorem start_settled : start.Settled := by
  refine ⟨?_, rfl⟩
  obtain ⟨d, hd⟩ : ∃ d, start.store = .empty d := ⟨_, rfl⟩
  have hr : start.roots = [] := rfl
  rw [Sound, hd, hr]
  exact Store.empty_sound d

theorem run_settled (steps : List Step) : (start.advanceAll steps).2.Settled :=
  advanceAll_settled start_settled steps

theorem described_advance (hs : s.Sound) (hd : s.realm.Described) (step : Step) :
    (s.advance step).2.realm.Described :=
  Realm.described_releaseAll ((Action.step_ensures hs step).follows.described hd) _

theorem described_advanceAll (hs : s.Settled) (hd : s.realm.Described) (steps : List Step) :
    (s.advanceAll steps).2.realm.Described := by
  induction steps generalizing s with
  | nil => exact hd
  | cons step steps ih => exact ih (advance_settled hs step).1 (described_advance hs.sound hd step)

theorem start_described : start.realm.Described := by
  refine ⟨fun id c hc => ?_, rfl⟩
  obtain ⟨d, hd⟩ : ∃ d, start.realm.store = .empty d := ⟨_, rfl⟩
  rw [hd] at hc
  cases hc

/-- After any steps, every object has the descriptor that is listed for its kind. -/
theorem run_described (steps : List Step) : (start.advanceAll steps).2.realm.Described :=
  described_advanceAll start_settled start_described steps

end Session

end CountedObjects
