import Mathlib.Control.Monad.Basic
import CountedObjects.Proofs.Session.Casts
import CountedObjects.Proofs.Shown

/-! Accessors that report why they fail. They abort all the same where the error is to name the type
of an object that reports none. -/
namespace CountedObjects

variable {α β : Type} {s : Store} {o : Handle} {k : Kind} {p : ScalarKind}

/-- A result that is a value or an error that is reported. -/
def Result.Returns (r : Result α) : Prop := (∃ x, r = .ok x) ∨ ∃ e, r = .error (.object e)

/-- A result that is there unless `P` holds, and for `P` an abort on a null handle. -/
structure Result.AbortsIff (r : Result α) (P : Prop) : Prop where
  aborts : P → r = .error (.abort .nullReference)
  returns : ¬ P → r.Returns

/-- An object that reports a null handle as its type and is not of the kind that is asked for. -/
def Store.Unnamed (s : Store) (k : Kind) (o : Handle) : Prop :=
  s.reportedType o = .ok none ∧ s.isKind k o = false

/-- How the accessors of a handle end. -/
structure Store.Guards (s : Store) (o : Handle) : Prop where
  tryCast : ∀ k, (s.tryCast k o).AbortsIff (s.Unnamed k o)
  unbox : ∀ p, (s.unbox p o).AbortsIff (s.Unnamed (.scalar p) o)
  ofObject : ∀ t : ElementType,
    (t.ofObject s o).AbortsIff (∃ k, t.required? = some k ∧ s.Unnamed k o)
  unboxEnum : ∀ e expected, (EnumValue.unbox s e expected o).AbortsIff (s.Unnamed .enumValue o)

open Result (Returns AbortsIff)

namespace Result

theorem returns_ok (x : α) : Returns (.ok x) := .inl ⟨x, rfl⟩

theorem returns_error (e : ObjectError) : Returns (.error (.object e) : Result α) := .inr ⟨e, rfl⟩

theorem returns_ofObject (r : Except ObjectError α) : (Result.ofObject r).Returns := by
  cases r with
  | ok x => exact returns_ok x
  | error e => exact returns_error e

theorem Returns.map {r : Result α} (h : r.Returns) (f : α → β) : Returns (r.map f) := by
  obtain ⟨x, rfl⟩ | ⟨e, rfl⟩ := h
  · exact returns_ok (f x)
  · exact returns_error e

theorem AbortsIff.map {r : Result α} {P : Prop} (h : r.AbortsIff P) (f : α → β) :
    AbortsIff (r.map f) P where
  aborts hp := by rw [h.aborts hp]; rfl
  returns hp := (h.returns hp).map f

theorem AbortsIff.congr {r : Result α} {P Q : Prop} (h : r.AbortsIff P) (hpq : P ↔ Q) :
    r.AbortsIff Q where
  aborts hq := h.aborts (hpq.mpr hq)
  returns hq := h.returns fun hp => hq (hpq.mp hp)

theorem abortsIff_of_returns {r : Result α} {P : Prop} (h : r.Returns) (hp : ¬ P) :
    r.AbortsIff P :=
  ⟨fun h => absurd h hp, fun _ => h⟩

end Result

namespace Store

theorem Safe.exists_reportedType (h : s.Safe o) (hn : o.isNull = false) :
    ∃ t, s.reportedType o = .ok t := by
  cases o with
  | null => cases hn
  | type d => exact ⟨_, rfl⟩
  | object id =>
    obtain ⟨c, hc⟩ := h.isLive
    exact ⟨c.reported, reportedType_of_find? hc⟩

theorem not_unnamed_of_isNull (hn : o.isNull = true) : ¬ s.Unnamed k o := by
  obtain rfl := Handle.eq_null_of_isNull hn
  exact fun h => nomatch h.1

/-- Every accessor returns for null and for an object of the kind that it asks for, and otherwise
says that the object is of another kind. -/
theorem Safe.abortsIff {r : Result α} (h : s.Safe o) (expected : String)
    (hnull : o.isNull = true → r.Returns) (hkind : s.isKind k o = true → r.Returns)
    (hother : o.isNull = false → s.isKind k o = false → r = s.mismatch expected o) :
    r.AbortsIff (s.Unnamed k o) := by
  cases hn : o.isNull with
  | true => exact Result.abortsIff_of_returns (hnull hn) (not_unnamed_of_isNull hn)
  | false =>
    cases hk : s.isKind k o with
    | true =>
      exact Result.abortsIff_of_returns (hkind hk) fun hu => Bool.noConfusion (hk.symm.trans hu.2)
    | false =>
      obtain ⟨t, ht⟩ := h.exists_reportedType hn
      rw [hother hn hk]
      cases t with
      | none =>
        have hu : s.Unnamed k o := ⟨ht, hk⟩
        exact ⟨fun _ => mismatch_of_reportedType_none ht expected, fun hnot => absurd hu hnot⟩
      | some d =>
        rw [mismatch_of_reportedType ht]
        have hnamed : ¬ s.Unnamed k o := fun hu => nomatch ht.symm.trans hu.1
        exact Result.abortsIff_of_returns (Result.returns_error _) hnamed

theorem Safe.tryCast_abortsIff (h : s.Safe o) (k : Kind) :
    (s.tryCast k o).AbortsIff (s.Unnamed k o) :=
  h.abortsIff _ (fun hn => .inl ⟨o, tryCast_of_isNull hn⟩)
    (fun hk => .inl ⟨o, tryCast_of_isKind hk⟩) tryCast_of_other_kind

theorem Safe.unbox_abortsIff (h : s.Safe o) (p : ScalarKind) :
    (s.unbox p o).AbortsIff (s.Unnamed (.scalar p) o) :=
  h.abortsIff _ (fun hn => .inr ⟨_, if_pos hn⟩) (fun hk => .inl (isKind_iff_unbox.mpr hk))
    ElementType.unbox_of_other_kind

theorem Safe.unboxText_abortsIff (h : s.Safe o) :
    (s.unboxText o).AbortsIff (s.Unnamed .string o) := by
  refine h.abortsIff _ (fun hn => .inr ⟨_, if_pos hn⟩) (fun hk => ?_)
    ElementType.unboxText_of_other_kind
  obtain ⟨v, hv⟩ := ElementType.exists_of_isKind_string hk
  exact .inl ⟨v, (ElementType.ofObject_of_boxes .string rfl hv).2⟩

theorem Safe.ofObject_abortsIff (h : s.Safe o) : (t : ElementType) →
    (t.ofObject s o).AbortsIff (∃ k, t.required? = some k ∧ s.Unnamed k o)
  | .scalar p => (h.unbox_abortsIff p).congr (by simp [ElementType.required?])
  | .string => h.unboxText_abortsIff.congr (by simp [ElementType.required?])
  | .object | .key => Result.abortsIff_of_returns (Result.returns_ok o) fun ⟨_, hk, _⟩ => nomatch hk
  | .pointer k => (h.tryCast_abortsIff k).congr (by simp [ElementType.required?])
  | .option t => by
    cases hn : o.isNull with
    | true =>
      have hnone : (ElementType.option t).ofObject s o = .ok none := if_pos hn
      rw [hnone]
      exact Result.abortsIff_of_returns (Result.returns_ok _) fun ⟨_, _, hu⟩ =>
        not_unnamed_of_isNull hn hu
    | false =>
      have hsome : (ElementType.option t).ofObject s o = (t.ofObject s o).map some :=
        if_neg (by rw [hn]; exact Bool.false_ne_true)
      rw [hsome]
      exact (h.ofObject_abortsIff t).map some

theorem Safe.unboxEnum_abortsIff (h : s.Safe o) (e : Enumeration) (expected : Descriptor) :
    (EnumValue.unbox s e expected o).AbortsIff (s.Unnamed .enumValue o) := by
  refine h.abortsIff expected.fullName (fun hn => .inr ⟨_, if_pos hn⟩) ?_ ?_
  · intro hk
    have hn := isNull_of_isKind hk
    rw [isKind_eq_any (by simp), Option.any_eq_true] at hk
    obtain ⟨b, hb, hkind⟩ := hk
    obtain ⟨d, n, rfl⟩ := Body.eq_enumValue (eq_of_beq hkind)
    have hvalue : EnumValue.unbox s e expected o = .ofObject (EnumValue.member e expected d n) := by
      rw [EnumValue.unbox, hn, hb]
      rfl
    exact hvalue ▸ Result.returns_ofObject _
  · intro hn hk
    rw [isKind_eq_any (by simp)] at hk
    rw [EnumValue.unbox, hn]
    cases hb : s.body? o with
    | none => rfl
    | some b =>
      cases b with
      | enumValue d n => simp [hb, Body.kind] at hk
      | _ => rfl

end Store

/-- A list can hold an object that reports a null handle as its type. -/
theorem Session.exists_unnamed :
    ∃ steps o,
      let s := (start.advanceAll steps).2
      o ∈ s.owners ∧ s.store.Safe o ∧ ∀ k, k ≠ .dyn → s.store.Unnamed k o := by
  refine ⟨[.list (.new "l" .object [.assembled "null" "t" []])], .object 0, ?_⟩
  intro s
  have howner : Handle.object 0 ∈ s.owners := by decide +kernel
  have htype : s.store.reportedType (.object 0) = .ok none := by decide +kernel
  have hdyn : s.store.isKind .dyn (.object 0) = true := by decide +kernel
  refine ⟨howner, fun _ hi => (run_settled _).isLive_iff.mpr (hi ▸ howner), fun k hk => ⟨htype, ?_⟩⟩
  exact Bool.eq_false_iff.mpr fun h => hk (Store.isKind_unique h hdyn)

/-- The accessors of a handle that does not dangle return, unless they are to name the type of an
object that reports a null handle as its type. -/
theorem Store.Safe.guards (h : s.Safe o) : s.Guards o where
  tryCast := h.tryCast_abortsIff
  unbox := h.unbox_abortsIff
  ofObject := h.ofObject_abortsIff
  unboxEnum := h.unboxEnum_abortsIff

theorem Session.guards_unnamed :
    ∃ steps o,
      let s := (start.advanceAll steps).2
      s.store.Unnamed .string o ∧ s.store.Guards o := by
  obtain ⟨steps, o, -, hsafe, hunnamed⟩ := exists_unnamed
  exact ⟨steps, o, hunnamed _ Kind.noConfusion, hsafe.guards⟩

/-- To ask whether such an object is of another kind aborts. So does a step that converts one. -/
theorem Session.run_aborts :
    (∃ steps o,
      let s := (start.advanceAll steps).2
      o ∈ s.owners ∧ (∀ k, k ≠ .dyn → s.store.tryCast k o = .error (.abort .nullReference)) ∧
        (∀ p, s.store.unbox p o = .error (.abort .nullReference)) ∧
        (∀ (t : ElementType) k, t.required? = some k → k ≠ .dyn →
          t.ofObject s.store o = .error (.abort .nullReference)) ∧
        ∀ e expected, EnumValue.unbox s.store e expected o = .error (.abort .nullReference)) ∧
    ∃ steps step,
      ((start.advanceAll steps).2.advance step).1.outcome = .error (.abort .nullReference) := by
  constructor
  · obtain ⟨steps, o, howner, hsafe, hunnamed⟩ := exists_unnamed
    refine ⟨steps, o, howner, fun k hk => ?_, fun p => ?_, fun t k ht hk => ?_, fun e x => ?_⟩
    · exact (hsafe.tryCast_abortsIff k).aborts (hunnamed k hk)
    · exact (hsafe.unbox_abortsIff p).aborts (hunnamed _ Kind.noConfusion)
    · exact (hsafe.ofObject_abortsIff t).aborts ⟨k, ht, hunnamed k hk⟩
    · exact (hsafe.unboxEnum_abortsIff e x).aborts (hunnamed _ Kind.noConfusion)
  · refine ⟨[.list (.new "l" (.pointer (.scalar .int)) [])],
      .list (.add "l" (.assembled "null" "t" [])), ?_⟩
    exact (Result.map_eq_error_iff fun _ => ()).mp (by decide +kernel)

end CountedObjects
