/-!
# Searching a finite set

`Search.visit` and `Search.sweep` go from some elements along edges without leaving a finite set,
and list the elements that they see, the newest first: `visit` breadth first, with a queue, `sweep`
depth first, with a stack. They end because the number of elements that they have not seen goes
down.
-/

namespace Deadwood.Search

variable {α : Type} [DecidableEq α]

/-- The number of elements of `within` outside `seen`. -/
def unseen (within seen : List α) : Nat := within.countP fun x => x ∉ seen

/-- Seeing a further element leaves fewer outside. -/
theorem unseen_cons_lt {within seen : List α} {x : α} (hx : x ∈ within) (hs : x ∉ seen) :
    unseen within (x :: seen) < unseen within seen := by
  unfold unseen
  induction within with
  | nil => cases hx
  | cons y rest ih =>
    have hle : ∀ ys : List α,
        ys.countP (fun z => z ∉ x :: seen) ≤ ys.countP fun z => z ∉ seen :=
      fun ys => List.countP_mono_left fun z _ h => by
        simp only [List.mem_cons, not_or, decide_eq_true_eq] at h ⊢
        exact h.2
    by_cases hy : y = x
    · subst hy
      have h1 : decide (y ∉ y :: seen) = false := by simp
      have h2 : decide (y ∉ seen) = true := by simp [hs]
      have := hle rest
      rw [List.countP_cons, List.countP_cons, h1, h2]
      simp only [Bool.false_eq_true, if_false, if_true]
      omega
    · have hr : x ∈ rest := by
        rcases List.mem_cons.1 hx with h | h
        · exact absurd h.symm hy
        · exact h
      have := ih hr
      rw [List.countP_cons, List.countP_cons]
      have hsame : decide (y ∉ x :: seen) = decide (y ∉ seen) := by simp [hy]
      rw [hsame]
      omega

/-- Adds to `seen` the elements of `within` that are reached from `todo` along `next` without
passing through `seen`. -/
def visit (within : List α) (next : α → List α) (todo seen : List α) : List α :=
  match todo with
  | [] => seen
  | x :: rest =>
    if _h : x ∈ within ∧ x ∉ seen then visit within next (rest ++ next x) (x :: seen)
    else visit within next rest seen
termination_by (unseen within seen, todo.length)
decreasing_by
  · exact Prod.Lex.left _ _ (unseen_cons_lt _h.1 _h.2)
  · exact Prod.Lex.right _ (by simp)

/-- As `visit`, but with a stack: what was found last is gone on from first. -/
def sweep (within : List α) (next : α → List α) (stack seen : List α) : List α :=
  match stack with
  | [] => seen
  | x :: rest =>
    if _h : x ∈ within ∧ x ∉ seen then sweep within next (next x ++ rest) (x :: seen)
    else sweep within next rest seen
termination_by (unseen within seen, stack.length)
decreasing_by
  · exact Prod.Lex.left _ _ (unseen_cons_lt _h.1 _h.2)
  · exact Prod.Lex.right _ (by simp)

end Deadwood.Search
