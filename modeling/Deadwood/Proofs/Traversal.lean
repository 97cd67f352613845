import Mathlib.Data.List.Forall2

/-!
# Traversals that may fail

Going over a list with a function that may fail gives the results of all items, or the failure of
the first item that fails.
-/

namespace Deadwood

variable {ε α β : Type} {f : α → Except ε β}

theorem exists_ok_of_toBool {x : Except ε α} (h : x.toBool = true) : ∃ a, x = .ok a := by
  cases x with
  | error e => cases h
  | ok a => exact ⟨a, rfl⟩

/-- A traversal succeeds as all its items do, one to one and in order. -/
theorem mapM_eq_ok_iff {xs : List α} {ys : List β} :
    xs.mapM f = .ok ys ↔ List.Forall₂ (fun x y => f x = .ok y) xs ys := by
  induction xs generalizing ys with
  | nil =>
    rw [List.mapM_nil, List.forall₂_nil_left_iff]
    exact ⟨fun h => (Except.ok.inj h).symm, fun h => congrArg Except.ok h.symm⟩
  | cons x rest ih =>
    rw [List.mapM_cons, List.forall₂_cons_left_iff]
    constructor
    · intro h
      cases hx : f x with
      | error e =>
        rw [hx] at h
        cases h
      | ok y =>
        rw [hx] at h
        cases hrest : rest.mapM f with
        | error e =>
          rw [hrest] at h
          cases h
        | ok zs =>
          rw [hrest] at h
          exact ⟨y, zs, rfl, ih.1 hrest, (Except.ok.inj h).symm⟩
    · rintro ⟨y, zs, hy, hzs, rfl⟩
      rw [hy, ih.2 hzs]
      rfl

theorem exists_of_mem_right {R : α → β → Prop} {xs : List α} {ys : List β}
    (h : List.Forall₂ R xs ys) {y : β} (hy : y ∈ ys) : ∃ x ∈ xs, R x y := by
  induction h with
  | nil => cases hy
  | cons hxy _ ih =>
    rcases List.mem_cons.1 hy with rfl | hy
    · exact ⟨_, List.mem_cons_self, hxy⟩
    · obtain ⟨x, hx, hR⟩ := ih hy
      exact ⟨x, List.mem_cons_of_mem _ hx, hR⟩

/-- What is picked from the items of a list and from those that belong to them is the same if it is
for each item. -/
theorem filterMap_eq_of_forall₂ {γ : Type} {R : α → β → Prop} {xs : List α} {ys : List β}
    (h : List.Forall₂ R xs ys)
    {g : α → Option γ} {k : β → Option γ} (hR : ∀ x y, R x y → g x = k y) :
    xs.filterMap g = ys.filterMap k := by
  induction h with
  | nil => rfl
  | cons hxy _ ih => simp only [List.filterMap_cons, hR _ _ hxy, ih]

/-- A traversal fails as the first item fails that does. -/
theorem mapM_eq_error_iff {xs : List α} {e : ε} : xs.mapM f = .error e ↔
    ∃ before x behind, xs = before ++ x :: behind ∧ (∀ b ∈ before, ∃ y, f b = .ok y) ∧
      f x = .error e := by
  induction xs with
  | nil =>
    refine iff_of_false (fun h => by cases h) ?_
    rintro ⟨before, x, behind, h, -⟩
    simp at h
  | cons x rest ih =>
    rw [List.mapM_cons]
    cases hx : f x with
    | error e' =>
      change Except.error e' = Except.error e ↔ _
      constructor
      · intro h
        exact ⟨[], x, rest, rfl, List.forall_mem_nil _,
          hx.trans (congrArg Except.error (Except.error.inj h))⟩
      · rintro ⟨before, y, behind, heq, hbefore, hy⟩
        cases before with
        | nil =>
          cases heq
          exact congrArg Except.error (Except.error.inj (hx.symm.trans hy))
        | cons b before =>
          cases heq
          obtain ⟨z, hz⟩ := hbefore x List.mem_cons_self
          rw [hx] at hz
          cases hz
    | ok y =>
      have hstep : (Except.ok y >>= fun y => rest.mapM f >>= fun ys => pure (y :: ys)) = .error e ↔
          rest.mapM f = .error e := by
        change (rest.mapM f >>= fun ys => pure (y :: ys)) = .error e ↔ _
        cases rest.mapM f with
        | error e' => rfl
        | ok ys => exact iff_of_false (fun h => by cases h) (fun h => by cases h)
      rw [hstep, ih]
      constructor
      · rintro ⟨before, z, behind, rfl, hbefore, hz⟩
        exact ⟨x :: before, z, behind, rfl, List.forall_mem_cons.2 ⟨⟨y, hx⟩, hbefore⟩, hz⟩
      · rintro ⟨before, z, behind, heq, hbefore, hz⟩
        cases before with
        | nil =>
          cases heq
          rw [hx] at hz
          cases hz
        | cons b before =>
          cases heq
          exact ⟨before, z, behind, rfl, (List.forall_mem_cons.1 hbefore).2, hz⟩

theorem mapM_cons_eq_ok_iff {x : α} {xs : List α} {ys : List β} : (x :: xs).mapM f = .ok ys ↔
    ∃ y rest, f x = .ok y ∧ xs.mapM f = .ok rest ∧ ys = y :: rest := by
  simp only [mapM_eq_ok_iff, List.forall₂_cons_left_iff]

theorem exists_ok_of_mapM {xs : List α} {ys : List β} (h : xs.mapM f = .ok ys) :
    ∀ x ∈ xs, ∃ y, f x = .ok y := by
  induction xs generalizing ys with
  | nil => exact List.forall_mem_nil _
  | cons x rest ih =>
    obtain ⟨y, ys', hy, hys', -⟩ := mapM_cons_eq_ok_iff.1 h
    exact List.forall_mem_cons.2 ⟨⟨y, hy⟩, ih hys'⟩

/-- A traversal of two lists, one behind the other. -/
theorem mapM_append_eq_ok_iff {xs xs' : List α} {ys : List β} : (xs ++ xs').mapM f = .ok ys ↔
    ∃ front back, xs.mapM f = .ok front ∧ xs'.mapM f = .ok back ∧ ys = front ++ back := by
  induction xs generalizing ys with
  | nil =>
    constructor
    · intro h
      exact ⟨[], ys, rfl, h, rfl⟩
    · rintro ⟨front, back, hfront, hback, rfl⟩
      cases hfront
      exact hback
  | cons x xs ih =>
    rw [List.cons_append, mapM_cons_eq_ok_iff]
    constructor
    · rintro ⟨y, rest, hy, hrest, rfl⟩
      obtain ⟨front, back, hfront, hback, rfl⟩ := ih.1 hrest
      exact ⟨y :: front, back, mapM_cons_eq_ok_iff.2 ⟨y, front, hy, hfront, rfl⟩, hback, rfl⟩
    · rintro ⟨front, back, hfront, hback, rfl⟩
      obtain ⟨y, rest, hy, hrest, rfl⟩ := mapM_cons_eq_ok_iff.1 hfront
      exact ⟨y, rest ++ back, hy, ih.2 ⟨rest, back, hrest, hback, rfl⟩, rfl⟩

/-- A traversal that gives for each group of items what belongs to the group. -/
theorem mapM_flatMap_eq_ok {γ : Type} {groups : List γ} {g : γ → List α} {k : γ → List β}
    (h : ∀ c ∈ groups, (g c).mapM f = .ok (k c)) :
    (groups.flatMap g).mapM f = .ok (groups.flatMap k) := by
  induction groups with
  | nil => rfl
  | cons c groups ih =>
    obtain ⟨hc, hrest⟩ := List.forall_mem_cons.1 h
    exact mapM_append_eq_ok_iff.2 ⟨_, _, hc, ih hrest, rfl⟩

theorem exists_bind_eq_ok_iff {x : Except ε α} :
    (∃ b, (x >>= f) = .ok b) ↔ ∃ a, x = .ok a ∧ ∃ b, f a = .ok b := by
  constructor
  · rintro ⟨b, hb⟩
    cases x with
    | error e => cases hb
    | ok a => exact ⟨a, rfl, b, hb⟩
  · rintro ⟨a, rfl, h⟩
    exact h

/-- A fold that may fail goes through if it does up to the last item and with it. -/
theorem foldlM_concat_eq_ok_iff {f : β → α → Except ε β} {xs : List α} {x : α} {b c : β} :
    (xs ++ [x]).foldlM f b = .ok c ↔ ∃ m, xs.foldlM f b = .ok m ∧ f m x = .ok c := by
  have hlast : ∀ m, [x].foldlM f m = f m x := by simp
  rw [List.foldlM_append]
  constructor
  · intro h
    cases hxs : xs.foldlM f b with
    | error e =>
      rw [hxs] at h
      cases h
    | ok m =>
      rw [hxs] at h
      exact ⟨m, rfl, (hlast m).symm.trans h⟩
  · rintro ⟨m, hm, hc⟩
    rw [hm]
    exact (hlast m).trans hc

/-- What is picked from a list behind some other picks comes from an item behind those that gave
them. -/
theorem filterMap_eq_append_cons_iff {f : α → Option β} {xs : List α}
    {front back : List β} {y : β} :
    xs.filterMap f = front ++ y :: back ↔ ∃ before x behind, xs = before ++ x :: behind ∧
      before.filterMap f = front ∧ f x = some y ∧ behind.filterMap f = back := by
  rw [List.filterMap_eq_append_iff]
  simp only [List.filterMap_eq_cons_iff]
  constructor
  · rintro ⟨before, _, rfl, rfl, between, x, behind, rfl, hnone, hx, rfl⟩
    refine ⟨before ++ between, x, behind, by simp, ?_, hx, rfl⟩
    rw [List.filterMap_append, List.filterMap_eq_nil_iff.2 hnone, List.append_nil]
  · rintro ⟨before, x, behind, rfl, rfl, hx, rfl⟩
    exact ⟨before, x :: behind, rfl, rfl, [], x, behind, rfl, by simp, hx, rfl⟩

end Deadwood
