import Mathlib.Data.List.Sort
import Deadwood.Fact

/-!
# The orders of symbols and places

Symbols are compared by scope, name and arity, places by file and line. Both orders are linear. A
list that is strictly ascending in such an order is determined by its members
(`Ascending.eq_of_mem_iff`); sorting makes a list without repetitions strictly ascending
(`Ascending.of_sorted`). Sorting by a text puts the texts in order (`pairwise_sortBy`), strictly so
if no text comes twice (`pairwise_lt_sortBy`).
-/

namespace Deadwood

/-! ## Ascending lists -/

section Ascending

variable {α : Type} {cmp : α → α → Ordering} {xs ys : List α}

/-- Every member stands strictly before those behind it. -/
def Ascending (cmp : α → α → Ordering) (xs : List α) : Prop := xs.Pairwise fun a b => cmp a b = .lt

instance : Decidable (Ascending cmp xs) := inferInstanceAs (Decidable (List.Pairwise _ _))

theorem Ascending.nodup [Std.ReflCmp cmp] (h : Ascending cmp xs) : xs.Nodup := by
  refine h.imp fun {a b} hab heq => ?_
  rw [heq, @Std.ReflCmp.compare_self _ cmp] at hab
  cases hab

theorem Ascending.eq_of_mem_iff [Std.OrientedCmp cmp] (hx : Ascending cmp xs)
    (hy : Ascending cmp ys) (h : ∀ a, a ∈ xs ↔ a ∈ ys) : xs = ys := by
  have hperm := (List.perm_ext_iff_of_nodup hx.nodup hy.nodup).2 h
  refine List.Perm.eq_of_pairwise (fun a b _ _ hab hba => ?_) hx hy hperm
  exact absurd hba (Std.OrientedCmp.not_lt_of_lt hab)

theorem Ascending.of_sorted [Std.LawfulEqCmp cmp] (h : xs.Pairwise fun a b => (cmp a b).isLE = true)
    (hn : xs.Nodup) : Ascending cmp xs := by
  refine h.imp₂ (fun a b hle hne => ?_) hn
  cases hab : cmp a b with
  | lt => rfl
  | eq => exact absurd (Std.LawfulEqCmp.eq_of_compare hab) hne
  | gt =>
    rw [hab] at hle
    cases hle

theorem isLE_total [Std.OrientedCmp cmp] (a b : α) : ((cmp a b).isLE || (cmp b a).isLE) = true := by
  rw [@Std.OrientedCmp.eq_swap _ cmp _ a b]
  cases cmp b a <;> rfl

end Ascending

theorem pairwise_sortBy {α : Type} (key : α → String) (xs : List α) :
    (xs.mergeSort fun a b => key a ≤ key b).Pairwise fun a b => key a ≤ key b := by
  have hsorted := @List.pairwise_mergeSort _ (fun a b => decide (key a ≤ key b))
    (fun a b c hab hbc => decide_eq_true
      (String.le_trans (of_decide_eq_true hab) (of_decide_eq_true hbc)))
    (fun a b => by simpa using String.le_total (key a) (key b)) xs
  exact hsorted.imp of_decide_eq_true

/-- Where no text comes twice, sorting puts the texts strictly in order. -/
theorem pairwise_lt_sortBy {α : Type} (key : α → String) {xs : List α} (h : (xs.map key).Nodup) :
    (xs.mergeSort fun a b => key a ≤ key b).Pairwise fun a b => key a < key b := by
  have hnodup : (xs.mergeSort fun a b => key a ≤ key b).Pairwise fun a b => key a ≠ key b :=
    List.pairwise_map.1 (((List.mergeSort_perm xs _).map key).nodup_iff.2 h)
  exact ((pairwise_sortBy key xs).and hnodup).imp fun h => Std.lt_of_le_of_ne h.1 h.2

/-! ## Symbols -/

namespace Symbol

instance : Std.TransCmp cmp :=
  inferInstanceAs (Std.TransCmp
    (compareLex (compareOn scope) (compareLex (compareOn name) (compareOn arity))))

instance : Std.LawfulEqCmp cmp where
  compare_self := Std.ReflCmp.compare_self
  eq_of_compare {a b} h := by
    obtain ⟨scope, name, arity⟩ := a
    obtain ⟨scope', name', arity'⟩ := b
    simp only [cmp, Ordering.then_eq_eq, Std.LawfulEqCmp.compare_eq_iff_eq] at h
    obtain ⟨rfl, rfl, rfl⟩ := h
    rfl

theorem le_trans (a b c : Symbol) (h₁ : le a b = true) (h₂ : le b c = true) : le a c = true :=
  Std.TransCmp.isLE_trans h₁ h₂

theorem le_total (a b : Symbol) : (le a b || le b a) = true := isLE_total a b

end Symbol

/-! ## Places -/

namespace Location

instance : Std.TransCmp cmp :=
  inferInstanceAs (Std.TransCmp (compareLex (compareOn file) (compareOn line)))

instance : Std.LawfulEqCmp cmp where
  compare_self := Std.ReflCmp.compare_self
  eq_of_compare {a b} h := by
    obtain ⟨file, line⟩ := a
    obtain ⟨file', line'⟩ := b
    simp only [cmp, Ordering.then_eq_eq, Std.LawfulEqCmp.compare_eq_iff_eq] at h
    obtain ⟨rfl, rfl⟩ := h
    rfl

theorem le_refl (a : Location) : le a a = true := by
  rw [le, @Std.ReflCmp.compare_self _ cmp]
  rfl

theorem le_trans {a b c : Location} (h₁ : le a b = true) (h₂ : le b c = true) : le a c = true :=
  Std.TransCmp.isLE_trans h₁ h₂

theorem le_total (a b : Location) : (le a b || le b a) = true := isLE_total a b

theorem le_antisymm {a b : Location} (h₁ : le a b = true) (h₂ : le b a = true) : a = b :=
  Std.LawfulEqCmp.eq_of_compare (Std.OrientedCmp.isLE_antisymm h₁ h₂)

theorem before_iff {a b : Location} : before a b = true ↔ cmp a b = .lt := beq_iff_eq

/-- Of two places one stands before the other or they are the same. -/
theorem le_of_not_before {a b : Location} (h : before a b = false) : le b a = true := by
  by_contra hle
  have hlt : cmp a b = .lt := Std.OrientedCmp.lt_of_not_isLE hle
  rw [before_iff.2 hlt] at h
  cases h

theorem le_of_before {a b : Location} (h : before a b = true) : le a b = true := by
  rw [le, before_iff.1 h]
  rfl

theorem not_before_of_le {a b : Location} (h : le a b = true) : before b a = false := by
  rw [Bool.eq_false_iff, Ne, before_iff]
  exact fun hlt => Std.OrientedCmp.not_isLE_of_lt hlt h

theorem before_of_not_before {a b : Location} (h : before a b = false) (hne : a ≠ b) :
    before b a = true := by
  by_contra hlt
  exact hne (le_antisymm (le_of_not_before (by simpa using hlt)) (le_of_not_before h))

theorem before_of_before_of_le {a b c : Location} (h₁ : before a b = true) (h₂ : le b c = true) :
    before a c = true :=
  before_iff.2 (Std.TransCmp.lt_of_lt_of_isLE (before_iff.1 h₁) h₂)

end Location

end Deadwood
