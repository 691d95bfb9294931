import CountedObjects.Collection.Ordering
import CountedObjects.View

/-! To show an object fails only if there is no object or no descriptor behind a handle. So does
sorting by what objects show. -/
namespace CountedObjects

namespace Result

variable {α β : Type} {r : Result α} {f : α → Result β}

theorem map_eq_error_iff {e : Fault} (g : α → β) : r.map g = .error e ↔ r = .error e := by
  cases r with
  | error e' =>
    constructor
    all_goals
      intro h
      cases h
      rfl
  | ok x => exact iff_of_false nofun nofun

/-- The only failure is the one of a handle that is used and points to nothing. -/
def Shows (r : Result α) : Prop := ∀ e, r = .error e → e = .abort .nullReference

theorem Shows.ok (x : α) : Shows (.ok x) := fun _ he => by cases he

theorem Shows.error : Shows (.error (.abort .nullReference) : Result α) := fun _ he => by
  cases he
  rfl

theorem Shows.bind (hr : r.Shows) (hf : ∀ x, r = .ok x → (f x).Shows) : Shows (r >>= f) := by
  cases r with
  | error e => exact hr e rfl ▸ .error
  | ok x => exact hf x rfl

theorem Shows.map (hr : r.Shows) (g : α → β) : Shows (r.map g) := by
  cases r with
  | error e => exact hr e rfl ▸ .error
  | ok x => exact .ok _

theorem Shows.mapM {f : α → Result β} (xs : List α) (hf : ∀ x ∈ xs, (f x).Shows) :
    Shows (xs.mapM f) := by
  induction xs with
  | nil => exact .ok []
  | cons x xs ih =>
    rw [List.mapM_cons]
    apply (hf x (List.mem_cons_self ..)).bind
    intro _ _
    apply (ih fun y hy => hf y (List.mem_cons_of_mem _ hy)).bind
    intro _ _
    exact .ok _

theorem Shows.forM {f : α → Result Unit} (xs : List α) (hf : ∀ x ∈ xs, (f x).Shows) :
    Shows (xs.forM f) := by
  induction xs with
  | nil => exact .ok ()
  | cons x xs ih =>
    apply (hf x (List.mem_cons_self ..)).bind
    intro _ _
    exact ih fun y hy => hf y (List.mem_cons_of_mem _ hy)

end Result

open Result (Shows)

theorem TypeHandle.demand_shows (t : TypeHandle) : Shows t.demand := by
  cases t with
  | none => exact .error
  | some d => exact .ok d

theorem Shape.display_shows (x : Shape) : Shows x.display := by
  induction x with
  | pair k v hk hv =>
    apply hk.bind
    intro _ _
    apply hv.bind
    intro _ _
    exact .ok _
  | entity id t => exact t.demand_shows.bind fun _ _ => .ok _
  | _ => exact .ok _

namespace Store

variable (s : Store)

theorem reportedType_shows (h : Handle) : Shows (s.reportedType h) := by
  unfold reportedType
  split
  · exact .ok _
  · exact .ok _
  · exact .error

theorem typeName_shows (h : Handle) : Shows (s.typeName h) :=
  (s.reportedType_shows h).bind fun t _ => t.demand_shows.bind fun _ _ => .ok _

theorem display_shows (h : Handle) : Shows (s.display h) := (s.shape h).display_shows

theorem view_shows (h : Handle) : Shows (s.view h) := by
  -- Arguments of an assembled object rank lower than the object.
  induction hn : h.rank using Nat.strongRecOn generalizing h with
  | _ n ih =>
  cases h with
  | null =>
    rw [view]
    exact .ok _
  | type d =>
    rw [view]
    exact (s.typeName_shows _).bind fun _ _ => .ok _
  | object id =>
    rw [view]
    apply (s.typeName_shows _).bind
    intro _ _
    apply (s.display_shows _).bind
    intro _ _
    split
    · exact .ok _
    · next hs _ =>
      refine Shows.bind (.mapM hs fun h _ => ?_) fun _ _ => .ok _
      split
      · next hr => exact ih h.rank (by simp only [Handle.rank] at *; omega) h rfl
      · exact .ok _
    · exact .ok _

theorem views_shows (hs : List Handle) : Shows (s.views hs) := .mapM hs fun h _ => s.view_shows h

theorem number_shows (h : Handle) : Shows (s.number h) := by
  unfold number
  split
  · exact .ok _
  · split
    · exact .ok _
    · exact (s.typeName_shows h).map _

end Store

namespace ElementType

variable (s : Store)

theorem display_shows : (t : ElementType) → (v : t.Value) → Shows (t.display s v)
  | scalar _, _ | string, _ | option _, none => .ok _
  | object, v | key, v | pointer _, v => s.display_shows v
  | option t, some v => t.display_shows v

theorem number_shows : (t : ElementType) → (v : t.Value) → Shows (t.number s v)
  | scalar _, _ | string, _ | option _, none => .ok _
  | object, v | key, v | pointer _, v => s.number_shows v
  | option t, some v => t.number_shows v

end ElementType

theorem SortBy.key_shows (order : SortBy) (s : Store) (t : ElementType) (v : t.Value) :
    Shows (order.key s t v) := by
  cases order with
  | nothing => exact .ok _
  | text | textDescending | length => exact (t.display_shows s v).bind fun _ _ => .ok _
  | number | numberDescending | magnitude | lastDigit =>
    exact (t.number_shows s v).bind fun _ _ => .ok _

theorem SortBy.sort_shows (order : SortBy) (s : Store) (t : ElementType) (xs : List t.Value) :
    Shows (order.sort s t xs).2 := by
  simp only [sort]
  split
  · exact .ok ()
  · refine .forM _ fun k hk => ?_
    obtain ⟨v, -, rfl⟩ := List.mem_map.mp hk
    exact (order.key_shows s t v).map _

end CountedObjects
