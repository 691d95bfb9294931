import CountedObjects.Proofs.Session.Journal

/-! Nothing that is observed of an object changes while the object lives, whatever is done to it or
to others, so that a key in a table is found until an edit of the table takes it away. -/
namespace CountedObjects

/-- Objects that live in both states are equal, hash and read alike and are of one type in both. -/
structure Store.Agrees (s t : Store) : Prop where
  equals : ∀ a b, s.Safe a → t.Safe a → s.Safe b → t.Safe b → t.equals a b = s.equals a b
  hashCode : ∀ a, s.Safe a → t.Safe a → t.hashCode a = s.hashCode a
  keyHash : ∀ a, s.Safe a → t.Safe a → t.keyHash a = s.keyHash a
  display : ∀ a, s.Safe a → t.Safe a → t.display a = s.display a
  reportedType : ∀ a, s.Safe a → t.Safe a → t.reportedType a = s.reportedType a
  view : ∀ a, s.Safe a → t.Safe a → t.view a = s.view a

theorem Store.Precedes.agrees {s t : Store} {os os' : List Handle} (h : s.Precedes t)
    (hs : s.Sound os) (ht : t.Sound os') : s.Agrees t where
  equals _ _ ha ha' hb hb' := h.equals_eq hs ht ha ha' hb hb'
  hashCode _ ha ha' := h.hashCode_eq hs ht ha ha'
  keyHash _ ha ha' := congrArg Hashing.word (h.hashCode_eq hs ht ha ha')
  display _ ha ha' := h.display_eq hs ht ha ha'
  reportedType _ ha ha' := h.reportedType_eq ha ha'
  view _ ha ha' := h.view_eq hs ht ha ha'

/-- The step that asks a table for a key. -/
def TableType.asks (name : String) (l : Literal) : TableType → Step
  | hashSet _ => .set (.contains name l)
  | dictionary _ _ => .dictionary (.containsKey name l)

namespace Session

variable {s u : Session} {id : Nat} {τ : TableType} {ss : List (Slot τ.key.Value τ.Value)}
  {e : Entry τ.key.Value τ.Value}

/-- A table has a key that equals the key of an entry and finds each one that does. While the key of
the entry lives these are the keys that are equal to it. -/
structure Finds (s : Session) (id : Nat) (τ : TableType) (ss : List (Slot τ.key.Value τ.Value))
    (e : Entry τ.key.Value τ.Value) : Prop where
  stored : ∃ k ∈ ss.map Slot.key, τ.key.mark s.store k = e.mark
  found : ∀ name (l : Literal) k u, s.handle name = .object id → l.element τ.key s = (.ok k, u) →
    τ.key.mark u.store k = e.mark →
      (s.advance (τ.asks name l)).1.outcome = .ok (.flag true)
  found_of_same : ∀ name (l : Literal) k u, s.handle name = .object id →
    l.element τ.key s = (.ok k, u) → u.store.SafeAll (τ.key.owned e.key) →
      τ.key.same u.store k e.key = true →
        (s.advance (τ.asks name l)).1.outcome = .ok (.flag true)

theorem Sound.outcome_asks (hs : s.Sound)
    (hx : s.store.contents? (.object id) = some (τ.contents ss)) (hk : s.store.Keyed τ.key ss)
    {name : String} {l : Literal} {k : τ.key.Value} (hid : s.handle name = .object id)
    (hrun : l.element τ.key s = (.ok k, u)) : (s.advance (τ.asks name l)).1.outcome =
      .ok (.flag (Entry.lookup (τ.key.mark u.store k) (s.store.entries τ.key ss)).isSome) := by
  rcases (Action.element_ensures hs τ.key l).error_or_ok with
    ⟨e, u', hl, -⟩ | ⟨k', u', hl, hu, hb, hsafe⟩
  · cases hl.symm.trans hrun
  · cases hl.symm.trans hrun
    obtain ⟨hk', he⟩ := hk.of_grows hb.store hs hu
    have hfound : Table.contains (τ.key.keying u.store) k ss =
        (Entry.lookup (τ.key.mark u.store k) (u.store.entries τ.key ss)).isSome :=
      Table.contains_eq_isSome_lookup (τ.key.keying_marks hu) hk' hsafe
    rw [← he, ← hfound]
    cases τ with
    | hashSet t => exact outcome_advance (.set _) (Action.setStep_contains_run ⟨hid, hx⟩ hrun)
    | dictionary kt vt =>
      exact outcome_advance (.dictionary _) (Action.dictionaryStep_containsKey_run ⟨hid, hx⟩ hrun)

theorem Settled.finds (hs : s.Settled)
    (hx : s.store.contents? (.object id) = some (τ.contents ss)) (hk : s.store.Keyed τ.key ss)
    (hmarked : s.Marked τ e)
    (hfound : (Entry.lookup e.mark (s.store.entries τ.key ss)).isSome = true) :
    s.Finds id τ ss e where
  stored := by
    obtain ⟨x, hx⟩ := Option.isSome_iff_exists.mp hfound
    obtain ⟨slot, hm, rfl⟩ := List.mem_map.mp (List.mem_of_find?_eq_some hx)
    have hmark := Entry.mark_eq_of_answers (List.find?_some hx)
    exact ⟨slot.key, List.mem_map_of_mem hm, hmark⟩
  found name l k u hid hrun hmark := by
    rw [hs.sound.outcome_asks hx hk hid hrun, hmark, hfound]
  found_of_same name l k u hid hrun hsafe hsame := by
    rw [hs.sound.outcome_asks hx hk hid hrun]
    rcases (Action.element_ensures hs.sound τ.key l).error_or_ok with
      ⟨f, u', hl, -⟩ | ⟨k', u', hl, hu, hb, hsafe'⟩
    · cases hl.symm.trans hrun
    · cases hl.symm.trans hrun
      rw [τ.key.same_eq_mark hu hsafe' hsafe] at hsame
      have hmark := (hmarked.mono hb.store.toPrecedes).mark_eq hu hsafe
      rw [(Mark.same_iff.mp hsame).2, hmark, hfound]

/-- After any steps: no observation changes in the further course of the session, and a key that was
put in a table and equals itself is found there, if no edit since then has removed it. -/
theorem run_agrees (steps : List Step) :
    let s := (start.advanceAll steps).2
    (∀ later, s.store.Agrees (s.advanceAll later).2.store) ∧
      ∀ id (τ : TableType) ss, s.store.contents? (.object id) = some (τ.contents ss) →
        ∀ (before : List (Edit τ.key.Value τ.Value)) e after,
          edits id τ start steps = before ++ .put e :: after → s.Marked τ e ∧
            (e.mark.same e.mark = true → (∀ d ∈ after, ¬ d.Removes e.mark) →
              s.Finds id τ ss e) := by
  intro s
  have hs : s.Settled := run_settled steps
  refine ⟨fun later => ?_, fun id τ ss hx before e after hedits => ?_⟩
  · exact (precedes_advanceAll hs later).agrees hs.sound (advanceAll_settled hs later).sound
  · obtain ⟨⟨ss', hx', hk, hes⟩, hmarked⟩ := run_records steps hx
    have hput : .put e ∈ edits id τ start steps := by
      rw [hedits]
      exact List.mem_append_right _ (List.mem_cons_self ..)
    have hss : ss' = ss := by
      have heq := Option.some.inj (hx'.symm.trans hx)
      cases τ <;> cases heq <;> rfl
    subst hss
    refine ⟨hmarked e hput, fun hself hafter => hs.finds hx hk (hmarked e hput) ?_⟩
    have happly : Edit.applyAll [] (before ++ .put e :: after) =
        Edit.applyAll (Entry.put e (Edit.applyAll [] before)) after := Edit.applyAll_append ..
    rw [hes, hedits, happly]
    refine Edit.isSome_lookup_applyAll ?_ hafter
    rw [← Option.isSome_map, Entry.lookup_put_of_same hself]
    rfl

/-- A set has a pair with a list, and then the list has the set. -/
theorem run_agrees_cycle :
    ∃ steps ss, ∃ e : Entry Handle Unit,
      let s := (start.advanceAll steps).2
      s.store.contents? (.object 1) = some (.hashSet .key ss) ∧
        edits 1 (.hashSet .key) start steps = [.put e] ∧ s.Finds 1 (.hashSet .key) ss e := by
  have hx : (start.advanceAll
      [.list (.new "l" .object []), .set (.new "s" .key),
        .set (.add "s" (.pair (.handle "l") .null)),
        .list (.add "l" (.handle "s"))]).2.store.contents? (.object 1) =
          some (.hashSet .key [⟨3268698301843925458, .object 2, ()⟩]) := by decide +kernel
  have hedits : edits 1 (.hashSet .key) start
      [.list (.new "l" .object []), .set (.new "s" .key),
        .set (.add "s" (.pair (.handle "l") .null)), .list (.add "l" (.handle "s"))] =
          [.put ⟨.value (.pair (.entity 0) .null), .object 2, ()⟩] := by decide +kernel
  refine ⟨_, _, _, hx, hedits, ?_⟩
  have hfinds := ((run_agrees _).2 1 (.hashSet .key) _ hx [] _ [] hedits).2
  exact hfinds (by decide) (List.forall_mem_nil _)

end Session

end CountedObjects
