import CountedObjects.Proofs.Session.Enumerators
import CountedObjects.Proofs.Session.Fitting
import CountedObjects.Proofs.Session.Journal
import CountedObjects.Proofs.Session.QueueSteps

/-! A collection rebuilt from the objects that it is listed as. Each object is given a name and
added to a new collection of the same type, which comes to hold what the first one held. -/
namespace CountedObjects

namespace Contents

/-- The step that names a new collection of the same type. -/
def renewal (l : String) : Contents → Step
  | list t _ => .list (.new l t [])
  | queue t _ => .queue (.new l t)
  | hashSet t _ => .set (.new l t)
  | dictionary k v _ => .dictionary (.new l k v)

/-- The step that adds what `x` points to, in a dictionary as the key of what `y` points to. -/
def addition (l x y : String) : Contents → Step
  | list .. => .list (.addObject l (.handle x))
  | queue .. => .queue (.enqueue l (.handle x))
  | hashSet .. => .set (.add l (.handle x))
  | dictionary .. => .dictionary (.set l (.handle x) (.handle y))

/-- The keys of a table have their hashes and no two of them are equal. -/
def Keyed (s : Store) (c : Contents) : Prop :=
  ∀ (τ : TableType) ss, c = τ.contents ss → s.Keyed τ.key ss ∧ Entry.Distinct (s.entries τ.key ss)

end Contents

namespace Session

/-- Points `x` at an object, or `x` and `y` at the parts of a pair for a dictionary. -/
def point (s : Session) (c : Contents) (x y : String) (o : Handle) : Session :=
  match c, s.store.body? o with
  | .dictionary .., some (.pair key value) => (s.setHandle x key).setHandle y value
  | _, _ => s.setHandle x o

/-- Adds objects one after the other to the collection that `l` points to. -/
def addEach (c : Contents) (l x y : String) : Session → List Handle → Session
  | s, [] => s
  | s, o :: os => addEach c l x y ((s.point c x y o).advance (c.addition l x y)).2 os

/-- In `s`, the objects stand for the elements of a collection, are converted back to them, and
added to a new collection make it hold the same. -/
structure Lossless (s : Session) (c : Contents) (items : List Handle) : Prop where
  count : items.length = c.count
  represents : c.Represents s.store items
  recovers : c.Recovers s.store items
  rebuilds : ∀ l x y, l ≠ x → l ≠ y → x ≠ y →
    let t := addEach c l x y (s.advance (c.renewal l)).2 items
    t.store.contents? (t.handle l) = some c

/-- An enumerator has an object for each element of a collection that there was. -/
structure Listing (s : Session) (c : Contents) (e : String) (items : List Handle) : Prop where
  settled : s.Settled
  lookup : ∃ b, s.enumerators.lookup e = some ⟨items, b⟩
  represents : c.Represents s.store items
  fits : c.All fun t v => t.Fits s.store v
  keyed : c.Keyed s.store

/-- The names that a step reads which adds an object to a collection. -/
def Points (s : Session) (x y : String) (o : Handle) : Contents → Prop
  | .dictionary .. => s.store.body? o = some (.pair (s.handle x) (s.handle y))
  | _ => s.handle x = o

end Session

theorem Contents.Keyed.mono {s t : Store} {os os' : List Handle} {c : Contents} (hk : c.Keyed s)
    (hst : s.Precedes t) (hs : s.Sound os) (ht : t.Sound os') (hsafe : t.SafeAll c.owned) :
    c.Keyed t := by
  intro τ ss hc
  obtain ⟨hslots, hd⟩ := hk τ ss hc
  obtain ⟨hslots', he⟩ := hslots.of_precedes hst hs ht (τ.safe_keys (hc ▸ hsafe))
  exact ⟨hslots', he ▸ hd⟩

/-! The steps that are taken. -/

namespace Action

variable {s u : Session} {h x y : String} {id : Nat} {t : ElementType}

theorem listStep_addObject_run {xs : List t.Value} {l : Literal} {o : Handle} {v : t.Value}
    (ho : s.Opened h (some id) (.list t xs)) (hl : l.build s = (.ok o, u))
    (hv : t.ofObject u.store o = .ok v) : listStep (.addObject h l) s =
      (.ok .nothing, u.mapRealm (·.replace id (.list t (xs ++ [v])))) := by
  have hx : asCollectionError (t.ofObject u.store o) = .ok v := by rw [hv]; rfl
  refine (bind_ok (openList_run ho) _).trans ((bind_ok hl _).trans ?_)
  exact bind_ok (convert_run_ok (g := fun s => asCollectionError (t.ofObject s o)) hx _) _

/-- A name is read as the element that its object stands for. -/
theorem ofObject_handle_run (hs : s.Sound) {v : t.Value} (ht : t.Recoverable)
    (hf : t.Fits s.store v) (hv : t.Represents s.store v (s.handle x)) :
    ∃ u, (Literal.handle x).build s = (.ok (s.handle x), u) ∧
      t.ofObject u.store (s.handle x) = .ok v ∧ u.Sound ∧ s.Builds u := by
  have hb := Literal.build_ensures hs (.handle x)
  have hsafe := hb.follows.store.safe (hs.safe_handle x)
  have hu := hv.mono hb.follows.store.toPrecedes hsafe
  exact ⟨_, rfl, t.ofObject_of_represents ht (hf.grows hb.follows.store t v) hu, hb.sound,
    hb.follows⟩

theorem element_handle_run (hs : s.Sound) {v : t.Value} (ht : t.Recoverable)
    (hf : t.Fits s.store v) (hv : t.Represents s.store v (s.handle x)) :
    ∃ u, (Literal.handle x).element t s = (.ok v, u) ∧ u.Sound ∧ s.Builds u := by
  obtain ⟨u, hrun, ho, hu, hb⟩ := ofObject_handle_run hs ht hf hv
  have hconvert := convert_run_ok (g := fun s' => t.ofObject s' (s.handle x)) ho t.required?
  exact ⟨u, (bind_ok hrun _).trans hconvert, hu, hb⟩

end Action

namespace Session

variable {s t : Session} {c d : Contents} {e l x y : String} {items rest : List Handle}
  {id m n : Nat} {o : Handle}

theorem not_scope_renewal (s : Session) (c : Contents) (l e : String) :
    ¬ ((c.renewal l).scope s).enumerators e := by
  cases c <;> exact id

theorem not_scope_addition (s : Session) (c : Contents) (l x y e : String) :
    ¬ ((c.addition l x y).scope s).enumerators e := by
  cases c <;> exact id

/-! A listing outlives what happens to other objects. -/

namespace Listing

theorem safe (h : s.Listing c e items) : s.store.SafeAll items := by
  obtain ⟨b, hl⟩ := h.lookup
  exact fun o ho => h.settled.sound.safe_of_mem_roots (mem_roots_of_lookup hl ho)

theorem safeAll_owned (h : s.Listing c e items) : s.store.SafeAll c.owned :=
  h.represents.safeAll_owned h.settled.sound h.safe

/-- Objects for the elements of a collection list it as long as an enumerator has them. -/
theorem of_precedes (hs : s.Settled) (hf : c.All fun t v => t.Fits s.store v) (hk : c.Keyed s.store)
    (hst : s.store.Precedes t.store) (ht : t.Settled) {b : Bool}
    (hl : t.enumerators.lookup e = some ⟨items, b⟩)
    (hrep : t.store.SafeAll items → c.Represents t.store items) : t.Listing c e items := by
  have hsafe : t.store.SafeAll items :=
    fun o ho => ht.sound.safe_of_mem_roots (mem_roots_of_lookup hl ho)
  have hc := (hrep hsafe).safeAll_owned ht.sound hsafe
  exact {
    settled := ht
    lookup := ⟨b, hl⟩
    represents := hrep hsafe
    fits := ((Contents.safeAll_owned.mp hc).and hf).imp fun t v hv => hv.2.mono hst t v hv.1
    keyed := hk.mono hst hs.sound ht.sound hc }

theorem mono (h : s.Listing c e items) (hst : s.store.Precedes t.store) (ht : t.Settled)
    (hl : t.enumerators.lookup e = s.enumerators.lookup e) : t.Listing c e items := by
  obtain ⟨b, hb⟩ := h.lookup
  exact of_precedes h.settled h.fits h.keyed hst ht (hl.trans hb) (h.represents.mono hst ht.sound)

theorem advance (h : s.Listing c e items) {step : Step}
    (hscope : ¬ (step.scope s).enumerators e) : (s.advance step).2.Listing c e items := by
  obtain ⟨ht, hst⟩ := advance_settled h.settled step
  exact h.mono hst ht (advance_enumerators h.settled.sound step hscope)

end Listing

/-! The names that an object is given. -/

theorem handle_point (hx : l ≠ x) (hy : l ≠ y) (s : Session) (c : Contents) (o : Handle) :
    (s.point c x y o).handle l = s.handle l := by
  unfold point
  split
  · rw [handle_setHandle_of_ne hy, handle_setHandle_of_ne hx]
  · exact handle_setHandle_of_ne hx s o

theorem leads_point (s : Session) (c : Contents) (x y : String) (o : Handle) :
    Leads .nothing s (s.point c x y o) := by
  unfold point
  split
  · exact (leads_setHandle s x _).trans (leads_setHandle _ y _)
  · exact leads_setHandle s x o

namespace Listing

theorem setHandle (h : s.Listing c e items) (ho : s.store.Safe o) (name : String) :
    (s.setHandle name o).Listing c e items := by
  have hl : Leads .nothing s (s.setHandle name o) := leads_setHandle s name o
  exact h.mono hl.store.toPrecedes ⟨setHandle_sound h.settled.sound ho name, h.settled.held⟩ rfl

/-- A pair that is listed lives on when its parts get names, and its parts live with it. -/
theorem setParts (h : s.Listing c e items) (ho : o ∈ items) {key value : Handle}
    (hb : s.store.body? o = some (.pair key value)) (x y : String) :
    let t := (s.setHandle x key).setHandle y value
    t.Listing c e items ∧ t.store.body? o = some (.pair key value) := by
  have later : ∀ {s t : Session}, Leads .nothing s t → t.Listing c e items →
      s.store.body? o = some (.pair key value) → t.store.body? o = some (.pair key value) :=
    fun hl ht hb => hl.store.toPrecedes.body?_eq (ht.safe o ho) hb fun _ hn => Body.noConfusion hn
  obtain ⟨hk, -⟩ := Store.safeAll_pair.mp (h.settled.sound.safe_of_pair hb)
  have hx := h.setHandle hk x
  have hbx := later (leads_setHandle s x key) hx hb
  obtain ⟨-, hv⟩ := Store.safeAll_pair.mp (hx.settled.sound.safe_of_pair hbx)
  have hy := hx.setHandle hv y
  exact ⟨hy, later (leads_setHandle _ y value) hy hbx⟩

theorem point (h : s.Listing c e items) (ho : o ∈ items) (x y : String) :
    (s.point c x y o).Listing c e items := by
  unfold Session.point
  split
  · next key value hb => exact (h.setParts ho hb x y).1
  · exact h.setHandle (h.safe o ho) x

theorem points (h : s.Listing c e items) (ho : items[n]? = some o) (hxy : x ≠ y) :
    (s.point c x y o).Points x y o c := by
  cases c with
  | list | queue | hashSet => exact handle_setHandle s x o
  | dictionary k v ss =>
    obtain ⟨_, -, key, value, hb, -⟩ := exists_of_forall₂ h.represents ho
    have hpoint : s.point (.dictionary k v ss) x y o = (s.setHandle x key).setHandle y value := by
      simp only [Session.point, hb]
    rw [hpoint, Points, handle_setHandle, handle_setHandle_of_ne hxy, handle_setHandle]
    exact (h.setParts (List.mem_of_getElem? ho) hb x y).2

end Listing

theorem Opened.point (ho : s.Opened l (some id) c) (h : s.Listing d e items) (hm : o ∈ items)
    (hx : l ≠ x) (hy : l ≠ y) : (s.point d x y o).Opened l (some id) c := by
  have hl := handle_point hx hy s d o
  have hsafe := (h.point hm x y).settled.sound.safe_handle l
  rw [hl, ho.1] at hsafe
  exact ⟨hl.trans ho.1, (leads_point s d x y o).store.contents?_of_isLive ho.2 hsafe.isLive⟩

/-! One object is added. -/

/-- A step that adds a listed object gives the new collection one more element. -/
theorem Listing.addition_run (h : s.Listing c e items) (hc : c.Recoverable)
    (ho : s.Opened l (some id) (c.take n)) (hi : items[n]? = some o) (hp : s.Points x y o c) :
    ∃ r u, Action.step (c.addition l x y) s = (r, u.mapRealm (·.replace id (c.take (n + 1)))) ∧
      u.Sound ∧ s.Builds u := by
  have hs := h.settled.sound
  have hfits := h.fits
  have hkeyed := h.keyed
  have hrep := h.represents
  cases c with
  | list t xs =>
    obtain ⟨v, hv, hrep⟩ := exists_of_forall₂ hrep hi
    obtain rfl : s.handle x = o := hp
    obtain ⟨u, hrun, hvo, hu, hb⟩ :=
      Action.ofObject_handle_run hs hc (hfits v (List.mem_of_getElem? hv)) hrep
    have htake : xs.take (n + 1) = xs.take n ++ [v] := by rw [List.take_add_one, hv]; rfl
    rw [Contents.take, htake]
    exact ⟨_, u, Action.listStep_addObject_run ho hrun hvo, hu, hb⟩
  | queue t xs =>
    obtain ⟨v, hv, hrep⟩ := exists_of_forall₂ hrep hi
    obtain rfl : s.handle x = o := hp
    obtain ⟨u, hrun, hu, hb⟩ :=
      Action.element_handle_run hs hc (hfits v (List.mem_of_getElem? hv)) hrep
    have htake : xs.take (n + 1) = xs.take n ++ [v] := by rw [List.take_add_one, hv]; rfl
    rw [Contents.take, htake]
    exact ⟨_, u, Action.queueStep_enqueue_run ho hrun, hu, hb⟩
  | hashSet t ss =>
    obtain ⟨e, he, hrep⟩ := exists_of_forall₂ (List.forall₂_map_left_iff.mp hrep) hi
    obtain rfl : s.handle x = o := hp
    obtain ⟨u, hrun, hu, hb⟩ :=
      Action.element_handle_run hs hc (hfits e (List.mem_of_getElem? he)).1 hrep
    obtain ⟨hslots, hdistinct⟩ := hkeyed (.hashSet t) ss rfl
    obtain ⟨hslots', hentries⟩ := hslots.of_grows hb.store hs hu
    rw [Contents.take, ← hslots'.insert_take hu (hentries ▸ hdistinct) he]
    exact ⟨_, u, Action.setStep_add_run ho hrun, hu, hb⟩
  | dictionary k v ss =>
    obtain ⟨e, he, key, value, hb, hkey, hvalue⟩ := exists_of_forall₂ hrep hi
    cases hb.symm.trans hp
    obtain ⟨hfk, hfv⟩ := hfits e (List.mem_of_getElem? he)
    obtain ⟨w, hrun, hw, hb⟩ := Action.element_handle_run hs hc.1 hfk hkey
    have hvalue' := hvalue.mono hb.store.toPrecedes (hb.store.safe (hs.safe_handle y))
    rw [← hb.handle y] at hvalue'
    obtain ⟨u, hrun', hu, hb'⟩ :=
      Action.element_handle_run hw hc.2 (hfv.grows hb.store v e.value) hvalue'
    obtain ⟨hslots, hdistinct⟩ := hkeyed (.dictionary k v) ss rfl
    obtain ⟨hslots', hentries⟩ := hslots.of_grows (hb.trans hb').store hs hu
    rw [← hentries] at hdistinct
    have hold : (Table.get? (k.keying u.store) e.key (ss.take n)).mapM (Action.toObject v) u =
        (.ok none, u) := by
      rw [hslots'.get?_take hu hdistinct he]
      rfl
    rw [Contents.take, ← hslots'.insert_take hu hdistinct he]
    exact ⟨_, u, Action.dictionaryStep_set_run ho hrun hrun' hold, hu, hb.trans hb'⟩

/-- A listed object that names point to is added to the new collection. -/
theorem Listing.opened_addition (h : s.Listing c e items) (hc : c.Recoverable)
    (ho : s.Opened l (some id) (c.take n)) (hi : items[n]? = some o) (hp : s.Points x y o c) :
    (s.advance (c.addition l x y)).2.Opened l (some id) (c.take (n + 1)) := by
  obtain ⟨r, u, hrun, hu, hb⟩ := h.addition_run hc ho hi hp
  have hkind : (c.take n).kind = (c.take (n + 1)).kind := by rw [c.kind_take, c.kind_take]
  have hsafe : u.store.SafeAll (c.take (n + 1)).owned := by
    have hall := Contents.safeAll_owned.mp h.safeAll_owned
    exact fun a ha => hb.store.safe (Contents.safeAll_owned.mpr (hall.take _) a ha)
  have hcontents := (ho.mono hb).contents?_of_replaces hu hkind hsafe _ hrun
  refine ⟨?_, hcontents⟩
  rw [advance_eq_endStep _ hrun]
  exact (ho.mono hb).1

/-- A new collection is empty. -/
theorem Settled.opened_renewal (hs : s.Settled) (c : Contents) (l : String) :
    ∃ id, (s.advance (c.renewal l)).2.Opened l (some id) (c.take 0) := by
  let b : Body := .collection (c.take 0)
  let id := (s.store.alloc (s.realm.registry.typeOf b.kind).1 b).1
  let m : Session := { s with realm := (s.realm.make b).2 }.hold (.object id)
  have hrun : ∃ r, Action.step (c.renewal l) s = (r, m.setHandle l (.object id)) := by
    cases c <;> exact ⟨_, rfl⟩
  obtain ⟨r, hrun⟩ := hrun
  have hm : m.store.contents? (.object id) = some (c.take 0) := by
    have hbody : m.store.body? (.object id) = some b := s.realm.body?_make b
    rw [Store.contents?, hbody]
  have hl : (m.setHandle l (.object id)).endStep.handle l = .object id :=
    handle_setHandle m l (.object id)
  have hsafe := (advance_settled hs (c.renewal l)).1.sound.safe_handle l
  rw [advance_eq_endStep _ hrun] at hsafe ⊢
  rw [hl] at hsafe
  have hlead : Leads .nothing m (m.setHandle l (.object id)) := leads_setHandle m l (.object id)
  have hlive := hsafe.isLive
  exact ⟨id, hl, (hlead.store.trans (spares_endStep _)).contents?_of_isLive hm hlive⟩

/-- The objects that are left to be added make the new collection complete. -/
theorem Listing.contents?_addEach (h : s.Listing c e items) (hc : c.Recoverable)
    (ho : s.Opened l (some id) (c.take n)) (hx : l ≠ x) (hy : l ≠ y) (hxy : x ≠ y)
    (hrest : items.drop n = rest) :
    let t := addEach c l x y s rest
    t.store.contents? (t.handle l) = some c := by
  induction rest generalizing s n with
  | nil =>
    have hn : c.count ≤ n := h.represents.length_eq ▸ List.drop_eq_nil_iff.mp hrest
    have hall := ho.2
    rw [Contents.take_of_count_le hn, ← ho.1] at hall
    exact hall
  | cons o rest ih =>
    have hi : items[n]? = some o := by
      rw [← Nat.add_zero n, ← List.getElem?_drop, hrest]
      rfl
    have hm := List.mem_of_getElem? hi
    have hp := h.point hm x y
    have hadded := hp.opened_addition hc (ho.point h hm hx hy) hi (h.points hi hxy)
    refine ih (hp.advance (not_scope_addition _ c l x y e)) hadded ?_
    rw [← List.drop_drop, hrest]
    rfl

theorem Listing.lossless (h : s.Listing c e items) (hc : c.Recoverable) : s.Lossless c items where
  count := h.represents.length_eq
  represents := h.represents
  recovers := h.represents.recovers hc h.fits
  rebuilds l x y hx hy hxy := by
    obtain ⟨id, ho⟩ := h.settled.opened_renewal c l
    have hr := h.advance (not_scope_renewal s c l e)
    exact hr.contents?_addEach hc ho hx hy hxy List.drop_zero

/-! Any collection is listed. -/

theorem run_keyed (steps : List Step) {id : Nat} {c : Contents}
    (hc : (start.advanceAll steps).2.store.contents? (.object id) = some c) :
    c.Keyed (start.advanceAll steps).2.store := by
  rintro τ ss rfl
  obtain ⟨ss', hc', hk, hentries⟩ := (run_records steps hc).tabulates
  obtain rfl := τ.contents_inj (Option.some.inj (hc'.symm.trans hc))
  exact ⟨hk, hentries ▸ Edit.distinct_applyAll List.Pairwise.nil _⟩

theorem Settled.listing_openEnumerator? (hs : s.Settled)
    (hc : s.store.contents? (.object id) = some c) (hf : c.All fun t v => t.Fits s.store v)
    (hk : c.Keyed s.store) (e : String) :
    ∃ t items, s.openEnumerator? e (.object id) = some t ∧
      t.enumerators.lookup e = some ⟨items, c.isUnordered⟩ ∧ t.Listing c e items := by
  let u : Session := { s with realm := (s.realm.enumerate c).2 }
  let x : Enumerator := ⟨(s.realm.enumerate c).1, c.isUnordered⟩
  have hopen : s.openEnumerator? e (.object id) = some (u.setEnumerator e x) := by
    rw [openEnumerator?, hc]
    rfl
  have hl : (u.setEnumerator e x).enumerators.lookup e = some x :=
    (Named.lookup_set ..).trans (if_pos rfl)
  have hsound : (u.setEnumerator e x).Sound ∧ Leads ⟨fun _ _ => False, fun _ => True⟩ s _ :=
    openEnumerator?_sound hs.sound trivial hopen
  have hrep : c.Represents u.store x.items :=
    Realm.enumerate_represents hs.sound c (hs.sound.safeAll_contents hc)
  exact ⟨_, x.items, hopen, hl, .of_precedes hs hf hk hsound.2.store.toPrecedes
    ⟨hsound.1, hs.held⟩ hl (hrep.mono (Store.precedes_releaseAll ..) hsound.1)⟩

/-- After any steps, a collection whose elements can be told apart as objects is enumerated. There
is one object for each element, in their order, which is converted back to that element, and a new
collection to which the objects are added holds the same. -/
theorem run_lossless (steps : List Step) :
    let s := (start.advanceAll steps).2
    ∀ o c, s.store.contents? o = some c → c.Recoverable → ∀ e, ∃ t items,
      s.openEnumerator? e o = some t ∧
        t.enumerators.lookup e = some ⟨items, c.isUnordered⟩ ∧ t.Lossless c items := by
  intro s o c hc hrec e
  have hs : s.Settled := run_settled steps
  obtain ⟨id, rfl⟩ : ∃ id, o = .object id := by
    cases o with
    | object id => exact ⟨id, rfl⟩
    | null | type => cases hc
  obtain ⟨t, items, ht, hl, hlisting⟩ :=
    hs.listing_openEnumerator? hc (run_fitting steps id c hc) (run_keyed steps hc) e
  exact ⟨t, items, ht, hl, hlisting.lossless hrec⟩

/-- A dictionary has a NaN as a key, which does not equal itself, and no text for it. -/
theorem run_lossless_nan :
    ∃ steps t items,
      (start.advanceAll steps).2.openEnumerator? "e" (.object 0) = some t ∧
        t.Lossless
          (.dictionary .key (.option .string) [⟨12265553585143545856, .object 1, none⟩]) items := by
  have hc : (start.advanceAll
      [.dictionary (.new "d" .key (.option .string)),
        .dictionary (.set "d" (.scalar (.double .nan)) .null)]).2.store.contents? (.object 0) =
          some (.dictionary .key (.option .string)
            [⟨12265553585143545856, .object 1, none⟩]) := by decide +kernel
  obtain ⟨t, items, hopen, -, hlossless⟩ := run_lossless _ (.object 0) _ hc ⟨trivial, rfl⟩ "e"
  exact ⟨_, t, items, hopen, hlossless⟩

end Session

end CountedObjects
