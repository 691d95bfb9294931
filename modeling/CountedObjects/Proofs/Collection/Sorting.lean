import CountedObjects.Collection.Ordering

/-! Sorting moves elements and neither loses nor repeats one, also where it ends early at an element
without a key. -/
namespace CountedObjects

namespace KeyOrder

open List (Perm)

variable {α β γ : Type} {o : KeyOrder α} {xs ys zs : List α}

/-- Both outcomes of a part of a sort have the elements `xs`, where `items` are those of a
success. -/
def Rearranges (items : β → List α) (xs : List α) : Except (List α) β → Prop
  | .ok b => (items b).Perm xs
  | .error ys => ys.Perm xs

theorem Rearranges.trans {x : Except (List α) β} {items : β → List α} (hx : Rearranges items xs x)
    (h : Perm xs ys) : Rearranges items ys x := by
  cases x with
  | error ws => exact Perm.trans hx h
  | ok b => exact Perm.trans hx h

/-- A part of a list is sorted, then the whole goes on; `g` is the whole in place of the part. -/
theorem Rearranges.bind {x : Except (List α) β} {f : β → Except (List α) γ} {items : β → List α}
    {items' : γ → List α} (g : List α → List α) (hx : Rearranges items ys x)
    (hg : ∀ ws, Perm ws ys → (g ws).Perm zs)
    (hf : ∀ b, (items b).Perm ys → Rearranges items' zs (f b)) :
    Rearranges items' zs (x.mapError g >>= f) := by
  cases x with
  | error ws => exact hg ws hx
  | ok b => exact hf b hx

theorem sorted_perm (o : KeyOrder α) (xs : List α) : (o.sorted xs).Perm xs :=
  List.mergeSort_perm xs o.le

theorem afterInsertion_perm (o : KeyOrder α) (xs : List α) : (o.afterInsertion xs).Perm xs := by
  have h := (o.sorted_perm (xs.takeWhile o.hasKey)).append_right (xs.dropWhile o.hasKey)
  rwa [List.takeWhile_append_dropWhile] at h

theorem sortAside_rearranges (o : KeyOrder α) (xs : List α) :
    Rearranges id xs (o.sortAside xs) := by
  unfold sortAside
  split
  · exact o.sorted_perm xs
  · simp only [List.splitAt_eq, Rearranges]
    split
    · have h := (o.sorted_perm (xs.take (xs.length / 2))).append
        (o.sorted_perm (xs.drop (xs.length / 2)))
      rwa [List.take_append_drop] at h
    · exact .refl _

theorem sortRun_rearranges (o : KeyOrder α) (r : Run α) :
    Rearranges id r.items (o.sortRun r) := by
  unfold sortRun
  split
  · exact .refl _
  · exact o.sortAside_rearranges r.items

theorem merge_rearranges (o : KeyOrder α) (l r : Run α) :
    Rearranges Run.items (l.items ++ r.items) (o.merge l r) := by
  unfold merge
  split
  · apply Rearranges.bind _ (o.sortRun_rearranges l)
    · exact fun ws h => h.append_right _
    · intro xs hx
      apply Rearranges.bind _ (o.sortRun_rearranges r)
      · exact fun ws h => hx.append h
      · intro ys hy
        have hboth : Perm (xs ++ ys) (l.items ++ r.items) := hx.append hy
        split
        · exact (List.merge_perm_append o.le).trans hboth
        · exact hboth
  · exact .refl _

theorem nextRun_rearranges (o : KeyOrder α) (p : RunPolicy) (xs : List α) :
    Rearranges (fun r => r.1.items ++ r.2) xs (o.nextRun p xs) := by
  unfold nextRun
  split
  · exact .refl _
  · next n _ =>
    split
    · have h := (o.sorted_perm (xs.take n)).append_right (xs.drop n)
      rwa [List.take_append_drop] at h
    · split
      · have hperm : ∀ ws, Perm ws (xs.take 32) → (ws ++ xs.drop 32).Perm xs := by
          intro ws h
          have hxs := h.append_right (xs.drop 32)
          rwa [List.take_append_drop] at hxs
        exact .bind _ (o.sortAside_rearranges (xs.take 32)) hperm hperm
      · exact .of_eq (List.take_append_drop p.least xs)

theorem waiting_cons (r : Run α) (d : Nat) (rs : List (Run α × Nat)) :
    Run.waiting ((r, d) :: rs) = Run.waiting rs ++ r.items := by
  simp [Run.waiting]

theorem collapse_rearranges (o : KeyOrder α) (depth : Nat) (rs : List (Run α × Nat)) (r : Run α) :
    Rearranges (fun p => Run.waiting p.1 ++ p.2.items) (Run.waiting rs ++ r.items)
      (o.collapse depth rs r) := by
  induction rs generalizing r with
  | nil => exact .refl _
  | cons p rs ih =>
    obtain ⟨l, d⟩ := p
    unfold collapse
    rw [waiting_cons, List.append_assoc]
    split
    · apply Rearranges.bind _ (o.merge_rearranges l r)
      · exact fun ws h => h.append_left _
      · exact fun r' h => (ih r').trans (h.append_left _)
    · show Perm (Run.waiting ((l, d) :: rs) ++ r.items) _
      rw [waiting_cons, List.append_assoc]

/-- At depth zero all runs that wait are merged. -/
theorem collapse_zero {rs rs' : List (Run α × Nat)} {r r' : Run α}
    (h : o.collapse 0 rs r = .ok (rs', r')) : rs' = [] := by
  induction rs generalizing r with
  | nil =>
    cases h
    rfl
  | cons p rs ih =>
    obtain ⟨l, d⟩ := p
    rw [collapse, if_pos (Nat.zero_le d)] at h
    cases hm : o.merge l r with
    | error ws => rw [hm] at h; cases h
    | ok m =>
      rw [hm] at h
      exact ih h

/-- No element is left: what waits is merged with the last run. -/
theorem sortFrom_nil (o : KeyOrder α) (n : Nat) (p : RunPolicy) (fuel : Nat)
    (rs : List (Run α × Nat)) (r : Run α) :
    Rearranges id (Run.waiting rs ++ r.items) (o.sortFrom n p fuel rs r []) := by
  have hc := o.collapse_rearranges 0 rs r
  rw [sortFrom]
  cases hrun : o.collapse 0 rs r with
  | error ws =>
    rw [hrun] at hc
    exact hc
  | ok c =>
    obtain ⟨rs', r'⟩ := c
    rw [hrun] at hc
    obtain rfl := collapse_zero hrun
    exact (o.sortRun_rearranges r').trans hc

theorem sortFrom_rearranges (o : KeyOrder α) (n : Nat) (p : RunPolicy) (fuel : Nat)
    (rs : List (Run α × Nat)) (r : Run α) (xs : List α) :
    Rearranges id (Run.waiting rs ++ r.items ++ xs) (o.sortFrom n p fuel rs r xs) := by
  induction fuel generalizing rs r xs with
  | zero =>
    cases xs with
    | nil => exact (o.sortFrom_nil ..).trans (.of_eq (List.append_nil _).symm)
    | cons x xs => exact .refl _
  | succ fuel ih =>
    cases xs with
    | nil => exact (o.sortFrom_nil ..).trans (.of_eq (List.append_nil _).symm)
    | cons x xs =>
      apply Rearranges.bind _ (o.nextRun_rearranges p (x :: xs))
      · exact fun ws h => h.append_left _
      · intro b hb
        obtain ⟨next, rest⟩ := b
        apply Rearranges.bind _ (o.collapse_rearranges _ rs r)
        · intro ws h
          rw [List.append_assoc]
          exact h.append hb
        · intro c hc
          obtain ⟨rs', r'⟩ := c
          apply (ih _ next rest).trans
          rw [waiting_cons, List.append_assoc]
          exact hc.append hb

theorem sortByRuns_rearranges (o : KeyOrder α) (xs : List α) :
    Rearranges id xs (o.sortByRuns xs) := by
  have hn := o.nextRun_rearranges (RunPolicy.ofSize xs.length) xs
  simp only [sortByRuns]
  cases hrun : o.nextRun (RunPolicy.ofSize xs.length) xs with
  | error ws =>
    rw [hrun] at hn
    exact hn
  | ok c =>
    obtain ⟨r, rest⟩ := c
    rw [hrun] at hn
    exact (o.sortFrom_rearranges xs.length _ xs.length [] r rest).trans hn

theorem sort_rearranges (o : KeyOrder α) (xs : List α) : Rearranges id xs (o.sort xs) := by
  unfold sort
  split
  · exact o.sorted_perm xs
  · split
    · exact o.afterInsertion_perm xs
    · exact o.sortByRuns_rearranges xs

end KeyOrder

theorem SortBy.sort_perm (order : SortBy) (s : Store) (t : ElementType) (xs : List t.Value) :
    (order.sort s t xs).1.Perm xs := by
  let ks := xs.map fun v => (order.key s t v, v)
  have h : KeyOrder.Rearranges id ks (order.keyOrder.sort ks) := KeyOrder.sort_rearranges _ ks
  have hm : ks.map (·.2) = xs := by rw [List.map_map]; exact List.map_id xs
  simp only [sort]
  cases hs : order.keyOrder.sort ks <;> rw [hs] at h <;> exact hm ▸ h.map (·.2)

end CountedObjects
