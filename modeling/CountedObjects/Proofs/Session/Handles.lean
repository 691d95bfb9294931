import CountedObjects.Proofs.Session.Building
import CountedObjects.Session.Handles

/-! Steps on handles and enumerators keep a session sound. They change no object, and at most the
enumerator that they are about. -/
namespace CountedObjects

/-- The enumerator that a step is about. -/
def HandleStep.enumerator? : HandleStep → Option String
  | openEnumerator _ e | snapshot e _ | next e _ | rest e => some e
  | _ => none

def HandleStep.scope (step : HandleStep) : Scope :=
  ⟨fun _ _ => False, fun e => step.enumerator? = some e⟩

namespace Action

open Session (Leads Builds)

variable {s t : Session} {scope : Scope}

theorem views_reads (hs : List Handle) : Reads (views hs) := .query _

theorem listed_reads (isUnordered : Bool) (hs : List Handle) : Reads (listed isUnordered hs) :=
  (views_reads hs).bind fun _ => .pure _

theorem dump_ensures (hs : s.Sound) (depth : Nat) (h : Handle) :
    Ensures Builds (dump depth h) s fun _ _ => True := by
  induction depth generalizing s h with
  | zero =>
    unfold dump
    apply (enumerate_ensures hs h).bind
    intro o t ht _ ho
    cases o with
    | none => exact .reads ht (.query _)
    | some hs => exact .query ht fun _ _ => .query ht fun _ _ => .pure ht trivial
  | succ depth ih =>
    unfold dump
    apply (enumerate_ensures hs h).bind
    intro o t ht _ ho
    cases o with
    | none => exact .reads ht (.query _)
    | some hs =>
      apply Ensures.query ht
      intro _ _
      apply Ensures.query ht
      intro _ _
      have hall : Ensures Builds (hs.mapM (dump depth)) t fun vs _ => ∀ v ∈ vs, True := by
        apply Ensures.mapM ht
        · exact fun _ _ _ _ h => h
        · exact fun x _ u hu _ => ih hu x
      apply hall.bind
      intro vs u hu _ _
      exact .get (.pure hu trivial)

theorem hash_reads (h : Handle) : Reads (hash h) :=
  (Reads.query _).bind fun _ => (Reads.ask _).bind fun _ => (Reads.ask _).bind fun _ => .pure _

theorem isUnordered_reads (h : Handle) : Reads (isUnordered h) := fun _ => rfl

/-- A name may be pointed at the object of another one or at its own. -/
theorem copyHandle_ensures (hs : s.Sound) (name source : String) :
    Ensures (Leads scope) (change fun s => s.setHandle name (s.handle source)) s fun _ _ => True :=
  (Ensures.change (Session.setHandle_sound hs (hs.safe_handle source) name)
    (Session.leads_setHandle s name _)).mono fun _ _ _ => trivial

theorem handleStep_ensures (hs : s.Sound) (step : HandleStep) :
    Ensures (Leads step.scope) (handleStep step) s fun _ _ => True := by
  cases step with
  | new h v =>
    apply (Literal.build_ensures hs v).bind
    intro o t ht _ ho
    exact (deliver_ensures ht (ht.safe_of_holds ho) _).map _
  | copy h source => exact (copyHandle_ensures hs h source).map _
  | assign h source =>
    exact (copyHandle_ensures hs h source).andThen fun _ _ ht _ _ => .ask (.pure ht trivial)
  | reclaim h => exact (copyHandle_ensures hs h h).andThen fun _ _ ht _ _ => .ask (.pure ht trivial)
  | take h source =>
    apply Ensures.ask
    apply (share_ensures hs (hs.safe_handle source)).bind
    intro o t ht _ ho
    have hc := Session.clearHandle_sound ht source
    have hl : Leads (HandleStep.take h source).scope t (t.clearHandle source) :=
      Session.leads_clearHandle t source
    have hsafe := hc.safe_of_holds (ho.mono hl.held)
    have hset := hl.trans (Session.leads_setHandle (t.clearHandle source) h o)
    have hchange := Ensures.change (g := fun t => (t.clearHandle source).setHandle h o)
      (Session.setHandle_sound hc hsafe h) hset
    exact hchange.map _
  | reset h =>
    exact (setHandle_ensures hs _ Store.safe_null).map _
  | drop h =>
    apply Ensures.ask
    exact (Ensures.change (Session.dropHandle_sound hs h) (Session.leads_dropHandle s h)).map _
  | refs h | isNull h | sameHandle a b | equals a b | keyEquals a b | isKind h k | downcast h k =>
    exact .ask (.pure hs trivial)
  | keyHash h => exact .ask (.ask (.ask (.pure hs trivial)))
  | «show» h | display h => exact .ask (.query hs fun _ _ => .pure hs trivial)
  | unbox h k => exact .ask (.convert hs fun _ _ => .pure hs trivial)
  | dump h => exact .ask ((dump_ensures hs _ _).leads.map _)
  | tryGet h | debug h =>
    apply Ensures.ask
    split
    · exact .reads hs (by first | exact .throw _ | exact .pure _)
    · exact .query hs fun _ _ => .pure hs trivial
  | text h => exact .ask (.query hs fun _ _ => .query hs fun _ _ => .pure hs trivial)
  | hash h => exact .ask (.bind_reads hs (hash_reads _) fun _ _ => .pure hs trivial)
  | type h => exact .ask (.query hs fun _ _ => .ask (.pure hs trivial))
  | equalsMethod a b => exact .ask (.query hs fun _ _ => .ask (.pure hs trivial))
  | hashEquals a b =>
    apply Ensures.ask
    apply Ensures.bind_reads hs (hash_reads _)
    intro _ _
    apply Ensures.ask
    apply Ensures.bind_reads hs (hash_reads _)
    intro _ _
    exact .pure hs trivial
  | tryCast h k target =>
    apply Ensures.ask
    apply Ensures.convert hs
    intro o ho
    rw [Store.eq_of_tryCast ho]
    exact (deliver_ensures hs (hs.safe_handle h) _).map _
  | cast h k target =>
    apply Ensures.ask
    apply Ensures.convert hs
    intro o ho
    rw [Store.eq_of_cast ho]
    exact (deliver_ensures hs (hs.safe_handle h) _).map _
  | instanceOf h type => exact .ask (.ask (.query hs fun _ _ => .pure hs trivial))
  | fromObject h t target =>
    apply Ensures.ask
    apply Ensures.convert hs
    intro v hv
    have hsafe : s.store.SafeAll (t.owned v) :=
      fun x hx => t.owned_ofObject v hv x hx ▸ hs.safe_handle h
    apply (toObject_ensures hs t v hsafe).bind
    intro o u hu _ ho
    exact (deliver_ensures hu (hu.safe_of_holds ho) _).map _
  | fromOption h t =>
    apply Ensures.ask
    apply Ensures.convert hs
    intro o hv
    cases o with
    | none => exact .pure hs trivial
    | some v =>
      have hsafe : s.store.SafeAll (t.owned v) :=
        fun x hx => (ElementType.option t).owned_ofObject (some v) hv x hx ▸ hs.safe_handle h
      apply (toObject_ensures hs t v hsafe).bind
      intro _ u hu _ _
      exact .query hu fun _ _ => .pure hu trivial
  | parts h key value =>
    apply Ensures.ask
    apply Ensures.convert hs
    intro o _
    apply Ensures.ask
    split
    · next k v hb =>
      obtain ⟨hsk, hsv⟩ := Store.safeAll_pair.mp (hs.safeAll_body hb)
      apply (share_ensures hs hsk).bind
      intro k t ht hst hk
      apply (share_ensures ht (hst.store.safe hsv)).bind
      intro v u hu htu hv
      apply Ensures.query hu
      intro _ _
      have hsk : u.store.Safe k := hu.safe_of_holds (hk.mono htu.held)
      apply (storeAs_ensures hu hsk key).andThen
      intro _ w hw huw _
      have hsv : w.store.Safe v := hw.safe_of_holds (hv.mono huw.held)
      exact (storeAs_ensures hw hsv value).map _
    · exact .throw hs _
  | enumerate h =>
    apply Ensures.ask
    apply (enumerate_ensures hs _).bind
    intro o t ht _ _
    cases o with
    | none => exact .pure ht trivial
    | some hs =>
      apply Ensures.bind_reads ht (isUnordered_reads _)
      intro _ _
      apply Ensures.bind_reads ht (listed_reads _ _)
      intro _ _
      exact .pure ht trivial
  | count h => exact .ask (.query hs fun _ _ => .ask (.pure hs trivial))
  | openEnumerator h e =>
    apply Ensures.get
    split
    · have hd := Session.dropEnumerator_sound hs e
      exact (Ensures.set hd (Session.leads_dropEnumerator s rfl)).map _
    · next t ht =>
      have hopen : t.Sound ∧ Leads (HandleStep.openEnumerator h e).scope s t :=
        Session.openEnumerator?_sound hs rfl ht
      exact (Ensures.set hopen.1 hopen.2).map _
  | snapshot e vs =>
    apply (Literal.buildAll_ensures hs vs).bind
    intro xs t ht _ hxs
    have hg := Realm.shareAll_gives (r := t.realm) ht fun x hx => ht.safe_of_holds (hxs x hx)
    let u : Session := t.mapRealm (·.shareAll xs)
    have hu : u.store.Sound (xs ++ u.roots) := hg.sound
    have hl : Leads (HandleStep.snapshot e vs).scope t u :=
      .of_store hg.grows.spares hg.described List.suffix_rfl rfl
    have hset := hl.trans (Session.leads_setEnumerator u rfl ⟨xs, false⟩)
    have hchange := Ensures.change
      (g := fun s => (s.mapRealm (·.shareAll xs)).setEnumerator e ⟨xs, false⟩)
      (Session.setEnumerator_sound (e := ⟨xs, false⟩) hu e) hset
    exact hchange.map _
  | next e target =>
    apply Ensures.get
    split
    · exact .pure hs trivial
    · next h t ht =>
      have hnext : t.Sound ∧ Leads (HandleStep.next e target).scope s t ∧ t.Holds h :=
        Session.takeNext?_sound hs rfl ht
      obtain ⟨ht, hl, hh⟩ := hnext
      apply (Ensures.set ht hl).andThen
      intro _ u hu _ e
      subst e
      exact (deliver_ensures hu (hu.safe_of_holds hh) _).map _
  | rest e =>
    apply Ensures.get
    split
    · exact .pure hs trivial
    · next r t ht =>
      have hrest : t.Sound ∧ Leads (HandleStep.rest e).scope s t :=
        Session.takeRest?_sound hs rfl ht
      obtain ⟨ht, hl⟩ := hrest
      apply (Ensures.set ht hl).andThen
      intro _ u hu _ e
      exact .bind_reads hu (listed_reads _ _) fun _ _ => .pure hu trivial

end Action

end CountedObjects
