import Mathlib.Logic.Relation
import Mathlib.Tactic.ByContra
import Deadwood.Search

/-!
# What a search sees

`Search.visit` and `Search.sweep` are the core of three walks: what the roots of an analysis reach,
the classes that a class is built on, and the classes that are built on it. This module says once
what such a walk lists.

* `Edge within next` leads from an element to those of its neighbours that lie in `within`.
* `Run` is a search that takes what waits in any order, with a queue (`run_visit`), a stack
  (`run_sweep`) or otherwise.
* `Run.mem_iff`: when everything next to `seen` is in `seen` or `todo`, a search lists what paths of
  edges reach from `seen` and from the part of `todo` inside `within`, and nothing else.
* `visit_through`: where only one element leads out of a set, a search lists what lies outside in
  the order in which a search from that element does.
-/

namespace Deadwood.Search

variable {α : Type}

/-- `b` is next to `a` and inside the set that a search does not leave. -/
def Edge (within : List α) (next : α → List α) (a b : α) : Prop := b ∈ next a ∧ b ∈ within

/-- What is next to the elements already seen is seen or waits to be. -/
def Pending (within : List α) (next : α → List α) (todo seen : List α) : Prop :=
  ∀ x ∈ seen, ∀ y, Edge within next x y → y ∈ seen ∨ y ∈ todo

theorem Pending.nil (within : List α) (next : α → List α) (todo : List α) :
    Pending within next todo [] := by
  intro x hx
  cases hx

/-- A fresh element moves from the front of the queue to those seen, and its neighbours queue up. -/
theorem Pending.fresh {within : List α} {next : α → List α} {x : α} {rest seen : List α}
    (h : Pending within next (x :: rest) seen) :
    Pending within next (rest ++ next x) (x :: seen) := by
  intro a ha b hb
  rcases List.mem_cons.1 ha with rfl | ha
  · exact .inr (List.mem_append_right _ hb.1)
  · rcases h a ha b hb with h | h
    · exact .inl (List.mem_cons_of_mem _ h)
    · rcases List.mem_cons.1 h with rfl | h
      · exact .inl List.mem_cons_self
      · exact .inr (List.mem_append_left _ h)

/-- An element that is seen or lies outside can be dropped from the queue. -/
theorem Pending.skip {within : List α} {next : α → List α} {x : α} {rest seen : List α}
    (h : Pending within next (x :: rest) seen) (hx : ¬ (x ∈ within ∧ x ∉ seen)) :
    Pending within next rest seen := by
  intro a ha b hb
  rcases h a ha b hb with h | h
  · exact .inl h
  · rcases List.mem_cons.1 h with rfl | h
    · by_cases hs : b ∈ seen
      · exact .inl hs
      · exact absurd ⟨hb.2, hs⟩ hx
    · exact .inr h

/-! ## Searches in any order -/

/-- A search that takes the elements that wait in any order: `Run within next todo seen out` if,
with `todo` waiting and `seen` seen, it may end with `out`. -/
inductive Run (within : List α) (next : α → List α) : List α → List α → List α → Prop
  | done {seen : List α} : Run within next [] seen seen
  /-- A fresh element is seen, and its neighbours wait. -/
  | fresh {x : α} {todo rest todo' seen out : List α} (hx : todo.Perm (x :: rest))
    (hin : x ∈ within)
      (hnew : x ∉ seen) (htodo : todo'.Perm (rest ++ next x))
        (h : Run within next todo' (x :: seen) out) :
      Run within next todo seen out
  /-- An element that is seen or lies outside no longer waits. -/
  | skip {x : α} {todo rest seen out : List α} (hx : todo.Perm (x :: rest))
    (hold : x ∈ within → x ∈ seen)
      (h : Run within next rest seen out) : Run within next todo seen out

theorem Pending.perm {within : List α} {next : α → List α} {todo todo' seen : List α}
    (h : Pending within next todo seen) (hperm : todo.Perm todo') :
    Pending within next todo' seen :=
  fun x hx y hy => (h x hx y hy).imp_right hperm.mem_iff.1

namespace Run

variable {within : List α} {next : α → List α} {todo seen out : List α}

/-- A search only adds in front of what is seen. -/
theorem suffix (h : Run within next todo seen out) : seen <:+ out := by
  induction h with
  | done => exact List.suffix_rfl
  | fresh _ _ _ _ _ ih => exact (List.suffix_cons _ _).trans ih
  | skip _ _ _ ih => exact ih

/-- Nothing is listed twice. -/
theorem nodup (h : Run within next todo seen out) (hseen : seen.Nodup) : out.Nodup := by
  induction h with
  | done => exact hseen
  | fresh _ _ hnew _ _ ih => exact ih (List.nodup_cons.2 ⟨hnew, hseen⟩)
  | skip _ _ _ ih => exact ih hseen

/-- Everything that waits and lies inside is seen in the end. -/
theorem mem_of_mem_todo (h : Run within next todo seen out) : ∀ x ∈ todo, x ∈ within → x ∈ out := by
  induction h with
  | done => exact List.forall_mem_nil _
  | fresh hx _ _ htodo h ih =>
    intro y hy hw
    rcases List.mem_cons.1 (hx.mem_iff.1 hy) with rfl | hy
    · exact h.suffix.subset List.mem_cons_self
    · exact ih y (htodo.mem_iff.2 (List.mem_append_left _ hy)) hw
  | skip hx hold h ih =>
    intro y hy hw
    rcases List.mem_cons.1 (hx.mem_iff.1 hy) with rfl | hy
    · exact h.suffix.subset (hold hw)
    · exact ih y hy hw

/-- What a search has seen in the end has no neighbours outside. -/
theorem closed (h : Run within next todo seen out) (hpending : Pending within next todo seen) :
    ∀ x ∈ out, ∀ y, Edge within next x y → y ∈ out := by
  induction h with
  | done =>
    intro x hx y hy
    exact (hpending x hx y hy).resolve_right List.not_mem_nil
  | fresh hx _ _ htodo _ ih => exact ih ((hpending.perm hx).fresh.perm htodo.symm)
  | skip hx hold _ ih => exact ih ((hpending.perm hx).skip fun hfresh => hfresh.2 (hold hfresh.1))

/-- A search lists only what was seen at the start and what paths lead to from what waits. -/
theorem reached (h : Run within next todo seen out) : ∀ x ∈ out,
    x ∈ seen ∨ ∃ r ∈ todo, r ∈ within ∧ Relation.ReflTransGen (Edge within next) r x := by
  induction h with
  | done => exact fun x hx => .inl hx
  | @fresh a todo rest todo' seen out hx hin _ htodo _ ih =>
    have ha : a ∈ todo := hx.mem_iff.2 List.mem_cons_self
    intro x hmem
    rcases ih x hmem with h | ⟨r, hr, hw, hp⟩
    · rcases List.mem_cons.1 h with rfl | h
      · exact .inr ⟨x, ha, hin, .refl⟩
      · exact .inl h
    · rcases List.mem_append.1 (htodo.mem_iff.1 hr) with hr | hr
      · exact .inr ⟨r, hx.mem_iff.2 (List.mem_cons_of_mem _ hr), hw, hp⟩
      · exact .inr ⟨a, ha, hin, hp.head ⟨hr, hw⟩⟩
  | skip hx _ _ ih =>
    intro x hmem
    exact (ih x hmem).imp_right fun ⟨r, hr, hp⟩ => ⟨r, hx.mem_iff.2 (List.mem_cons_of_mem _ hr), hp⟩

/-- **What a search lists**, in whatever order it goes: all that paths reach from what was seen at
the start and from what waits inside. -/
theorem mem_iff (h : Run within next todo seen out) (hpending : Pending within next todo seen)
    {x : α} :
    x ∈ out ↔ ∃ r, (r ∈ seen ∨ r ∈ todo ∧ r ∈ within) ∧
      Relation.ReflTransGen (Edge within next) r x := by
  constructor
  · intro hx
    rcases h.reached x hx with h | ⟨r, hr, hw, hp⟩
    · exact ⟨x, .inl h, .refl⟩
    · exact ⟨r, .inr ⟨hr, hw⟩, hp⟩
  · rintro ⟨r, hr, hp⟩
    induction hp with
    | refl =>
      rcases hr with hr | ⟨hr, hw⟩
      · exact h.suffix.subset hr
      · exact h.mem_of_mem_todo r hr hw
    | tail _ e ih => exact h.closed hpending _ ih _ e

end Run

variable [DecidableEq α] (within : List α) (next : α → List α)

theorem run_visit (todo seen : List α) :
    Run within next todo seen (visit within next todo seen) := by
  fun_induction visit within next todo seen with
  | case1 seen => exact .done
  | case2 seen x rest hx ih => exact .fresh (.refl _) hx.1 hx.2 (.refl _) ih
  | case3 seen x rest hx ih =>
    exact .skip (.refl _) (fun hin => by_contra fun hnew => hx ⟨hin, hnew⟩) ih

theorem run_sweep (stack seen : List α) :
    Run within next stack seen (sweep within next stack seen) := by
  fun_induction sweep within next stack seen with
  | case1 seen => exact .done
  | case2 seen x rest hx ih => exact .fresh (.refl _) hx.1 hx.2 List.perm_append_comm ih
  | case3 seen x rest hx ih =>
    exact .skip (.refl _) (fun hin => by_contra fun hnew => hx ⟨hin, hnew⟩) ih

theorem suffix_visit (todo seen : List α) : seen <:+ visit within next todo seen :=
  (run_visit within next todo seen).suffix

theorem visit_nodup (todo seen : List α) (h : seen.Nodup) : (visit within next todo seen).Nodup :=
  (run_visit within next todo seen).nodup h

theorem mem_visit_iff {todo seen : List α} (h : Pending within next todo seen) {x : α} :
    x ∈ visit within next todo seen ↔
      ∃ r, (r ∈ seen ∨ r ∈ todo ∧ r ∈ within) ∧ Relation.ReflTransGen (Edge within next) r x :=
  (run_visit within next todo seen).mem_iff h

/-! ## The part of a search outside a closed set -/

/-- Where the elements that are not kept lead to none that is, a search lists the kept ones as if
there were no others. -/
theorem filter_visit {keep : α → Bool} (todo seen : List α)
    (h : ∀ x, keep x = false → x ∉ seen → ∀ y ∈ next x, keep y = false) :
    (visit within next todo seen).filter keep =
      visit within (fun x => (next x).filter keep) (todo.filter keep) (seen.filter keep) := by
  fun_induction visit within next todo seen with
  | case1 seen => simp [visit]
  | case2 seen a rest ha ih =>
    have hrest := ih fun x hx hs => h x hx fun hmem => hs (List.mem_cons_of_mem _ hmem)
    cases hk : keep a with
    | true =>
      have hfresh : a ∈ within ∧ a ∉ seen.filter keep :=
        ⟨ha.1, fun hmem => ha.2 (List.mem_filter.1 hmem).1⟩
      rw [hrest, List.filter_cons_of_pos hk, List.filter_cons_of_pos hk, visit, dif_pos hfresh,
        List.filter_append]
    | false =>
      have hnone : (next a).filter keep = [] :=
        List.filter_eq_nil_iff.2 fun y hy => by simp [h a hk ha.2 y hy]
      rw [hrest, List.filter_cons_of_neg (by simp [hk]), List.filter_cons_of_neg (by simp [hk]),
        List.filter_append, hnone, List.append_nil]
  | case3 seen a rest ha ih =>
    rw [ih h]
    cases hk : keep a with
    | true =>
      have hskip : ¬ (a ∈ within ∧ a ∉ seen.filter keep) :=
        fun hfresh => ha ⟨hfresh.1, fun hmem => hfresh.2 (List.mem_filter.2 ⟨hmem, hk⟩)⟩
      rw [List.filter_cons_of_pos hk]
      conv_rhs => rw [visit, dif_neg hskip]
    | false => rw [List.filter_cons_of_neg (by simp [hk])]

/-- If only `c` leads to elements that are kept, a search sees `c` before any of them, and then
lists them as a search that starts from `c`. -/
theorem visit_through {keep : α → Bool} {c : α} (hc : keep c = false)
    (h : ∀ x, keep x = false → x ≠ c → ∀ y ∈ next x, keep y = false) (todo seen : List α)
    (htodo : ∀ x ∈ todo, keep x = false) (hseen : ∀ x ∈ seen, keep x = false) (hfresh : c ∉ seen)
    (hmem : c ∈ visit within next todo seen) :
    ∃ newer older, visit within next todo seen = newer ++ c :: older ∧
      (∀ x ∈ older, keep x = false) ∧
      newer.filter keep = visit within (fun x => (next x).filter keep)
        ((next c).filter keep) [] := by
  fun_induction visit within next todo seen with
  | case1 seen => exact absurd hmem hfresh
  | case2 seen a rest ha ih =>
    have hrest : ∀ x ∈ rest, keep x = false := fun x hx => htodo x (List.mem_cons_of_mem _ hx)
    by_cases hac : a = c
    · subst hac
      obtain ⟨newer, hnewer⟩ := suffix_visit within next (rest ++ next a) (a :: seen)
      refine ⟨newer, seen, hnewer.symm, hseen, ?_⟩
      have hfilter := filter_visit within next (rest ++ next a) (a :: seen)
        fun x hx hs => h x hx fun hxa => hs (hxa ▸ List.mem_cons_self)
      have hnone : ∀ xs : List α, (∀ x ∈ xs, keep x = false) → xs.filter keep = [] :=
        fun xs hxs => List.filter_eq_nil_iff.2 fun x hx => by simp [hxs x hx]
      rw [← hnewer, List.filter_append, List.filter_cons_of_neg (by simp [hc]), List.filter_append,
        hnone seen hseen, hnone rest hrest, List.append_nil, List.nil_append] at hfilter
      exact hfilter
    · have ha' : keep a = false := htodo a List.mem_cons_self
      refine ih ?_ ?_ ?_ hmem
      · intro x hx
        rcases List.mem_append.1 hx with hx | hx
        · exact hrest x hx
        · exact h a ha' hac x hx
      · intro x hx
        rcases List.mem_cons.1 hx with rfl | hx
        · exact ha'
        · exact hseen x hx
      · intro hcs
        rcases List.mem_cons.1 hcs with rfl | hcs
        · exact hac rfl
        · exact hfresh hcs
  | case3 seen a rest _ ih =>
    exact ih (fun x hx => htodo x (List.mem_cons_of_mem _ hx)) hseen hfresh hmem

end Deadwood.Search
