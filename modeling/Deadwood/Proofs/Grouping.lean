import Mathlib.Algebra.GroupWithZero.Nat
import Mathlib.Data.List.Induction
import Deadwood.Proofs.Table

/-!
# Tables that group and tables that count

Reports and drawings sort items into a table by a key, one item after the other: either the items of
a key are listed, or they are counted. What a key holds in the end comes from the items with this
key alone (`find?_foldl_update`), and every single write keeps account of the whole
(`flatten_values_append`, `sum_values_add`).

* `grouped key value xs` lists the values by key: a key that occurs holds the values of its items in
  their order (`find?_grouped`), and all together they are the values of all items
  (`flatten_grouped_perm`).
* `counted key xs` counts the items by key (`amount_counted`); the counts come to the number of
  items (`sum_counted`).
* `amount t k` is the count at a key, zero where there is none; `addAll t t'` adds the counts of
  `t'`, key by key (`amount_addAll`).
-/

namespace Deadwood.Table

variable {α κ ν : Type} [DecidableEq κ]

/-! ## Writing item by item -/

theorem find?_foldl_update (key : α → κ) (write : α → Option ν → ν) (xs : List α) (t : Table κ ν)
    (k : κ) :
    (xs.foldl (fun t x => t.update (key x) (write x)) t).find? k =
      (xs.filter (key · = k)).foldl (fun old x => some (write x old)) (t.find? k) := by
  induction xs generalizing t with
  | nil => rfl
  | cons x rest ih =>
    rw [List.foldl_cons, ih, find?_update]
    by_cases h : key x = k
    · rw [List.filter_cons_of_pos (by simpa using h), List.foldl_cons, if_pos h.symm, h]
    · rw [List.filter_cons_of_neg (by simpa using h), if_neg (Ne.symm h)]

theorem nodup_keys_foldl_update (key : α → κ) (write : α → Option ν → ν) (xs : List α)
    {t : Table κ ν} (h : t.keys.Nodup) :
    (xs.foldl (fun t x => t.update (key x) (write x)) t).keys.Nodup := by
  induction xs generalizing t with
  | nil => exact h
  | cons x rest ih => exact ih (nodup_keys_update h (key x) (write x))

/-! ## Grouping -/

/-- The values of the items by key, in the order in which the keys come. -/
def grouped (key : α → κ) (value : α → ν) (xs : List α) : Table κ (List ν) :=
  xs.foldl (fun t x => t.update (key x) fun old => old.getD [] ++ [value x]) ∅

theorem nodup_keys_grouped (key : α → κ) (value : α → ν) (xs : List α) :
    (grouped key value xs).keys.Nodup :=
  nodup_keys_foldl_update key _ xs List.nodup_nil

theorem find?_grouped (key : α → κ) (value : α → ν) (xs : List α) (k : κ) :
    (grouped key value xs).find? k =
      if k ∈ xs.map key then some ((xs.filter (key · = k)).map value) else none := by
  have hlist : ∀ (ys : List α) (front : List ν),
      ys.foldl (fun old x => some (old.getD [] ++ [value x])) (some front) =
        some (front ++ ys.map value) := by
    intro ys
    induction ys with
    | nil => simp
    | cons y rest ih =>
      intro front
      rw [List.foldl_cons, Option.getD_some, ih, List.map_cons, List.append_assoc,
        List.singleton_append]
  rw [grouped, find?_foldl_update key (fun x old => old.getD [] ++ [value x])]
  cases hfilter : xs.filter (key · = k) with
  | nil =>
    have hnone : k ∉ xs.map key := by
      rintro hk
      obtain ⟨x, hx, rfl⟩ := List.mem_map.1 hk
      simpa using List.filter_eq_nil_iff.1 hfilter x hx
    rw [if_neg hnone]
    rfl
  | cons y rest =>
    obtain ⟨hy, hkey⟩ :=
      List.mem_filter.1 (hfilter ▸ List.mem_cons_self : y ∈ xs.filter (key · = k))
    have hsome : k ∈ xs.map key := List.mem_map.2 ⟨y, hy, by simpa using hkey⟩
    rw [if_pos hsome, List.foldl_cons]
    exact hlist rest [value y]

theorem mem_grouped_iff {key : α → κ} {value : α → ν} {xs : List α} {k : κ} {vs : List ν} :
    (k, vs) ∈ (grouped key value xs).entries ↔
      k ∈ xs.map key ∧ vs = (xs.filter (key · = k)).map value := by
  rw [← find?_eq_some_iff (nodup_keys_grouped key value xs), find?_grouped]
  by_cases h : k ∈ xs.map key
  · rw [if_pos h, Option.some_inj, and_iff_right h, eq_comm]
  · simp [h]

/-- A value that is listed is listed behind all others, but for their order. -/
theorem flatten_values_append (t : Table κ (List ν)) (k : κ) (v : ν) :
    (t.update k fun old => old.getD [] ++ [v]).values.flatten.Perm (t.values.flatten ++ [v]) := by
  obtain ⟨es⟩ := t
  change ((updateEntries k (fun old => old.getD [] ++ [v]) es).map (·.2)).flatten.Perm
    ((es.map (·.2)).flatten ++ [v])
  induction es with
  | nil => exact .refl _
  | cons e rest ih =>
    obtain ⟨k', vs⟩ := e
    by_cases h : k' = k
    · simp only [updateEntries, if_pos h, List.map_cons, List.flatten_cons, Option.getD_some,
        List.append_assoc]
      exact List.perm_append_comm.append_left vs
    · simp only [updateEntries, if_neg h, List.map_cons, List.flatten_cons, List.append_assoc]
      exact ih.append_left vs

/-- No item is lost or doubled by grouping. -/
theorem flatten_grouped_perm (key : α → κ) (value : α → ν) (xs : List α) :
    (grouped key value xs).values.flatten.Perm (xs.map value) := by
  induction xs using List.reverseRecOn with
  | nil => exact .refl _
  | append_singleton xs x ih =>
    rw [grouped, List.foldl_concat, ← grouped, List.map_append, List.map_singleton]
    exact (flatten_values_append _ (key x) (value x)).trans (ih.append_right [value x])

/-! ## Counting -/

/-- The count at a key. -/
def amount (t : Table κ Nat) (k : κ) : Nat := t.findD k 0

/-- Adds to the count at a key. -/
def add (t : Table κ Nat) (k : κ) (n : Nat) : Table κ Nat := t.update k fun old => old.getD 0 + n

theorem amount_add (t : Table κ Nat) (k k' : κ) (n : Nat) :
    (t.add k n).amount k' = t.amount k' + if k = k' then n else 0 := by
  unfold amount findD add
  rw [find?_update]
  by_cases h : k = k'
  · rw [if_pos h, if_pos h.symm, h, Option.getD_some]
  · rw [if_neg h, if_neg (Ne.symm h), Nat.add_zero]

theorem mem_keys_add {t : Table κ Nat} {k k' : κ} {n : Nat} :
    k' ∈ (t.add k n).keys ↔ k' = k ∨ k' ∈ t.keys := by
  rw [add, keys_update]
  split_ifs with h
  · exact ⟨.inr, fun hk => hk.elim (fun e => e ▸ h) id⟩
  · rw [List.mem_append, List.mem_singleton, or_comm]

theorem sum_values_add (t : Table κ Nat) (k : κ) (n : Nat) :
    (t.add k n).values.sum = t.values.sum + n := by
  obtain ⟨es⟩ := t
  change ((updateEntries k (fun old => old.getD 0 + n) es).map (·.2)).sum = (es.map (·.2)).sum + n
  induction es with
  | nil => simp [updateEntries]
  | cons e rest ih =>
    obtain ⟨k', m⟩ := e
    by_cases h : k' = k
    · simp only [updateEntries, if_pos h, List.map_cons, List.sum_cons, Option.getD_some]
      omega
    · simp only [updateEntries, if_neg h, List.map_cons, List.sum_cons, ih]
      omega

/-- The number of items of each key, in the order in which the keys come. -/
def counted (key : α → κ) (xs : List α) : Table κ Nat := xs.foldl (fun t x => t.add (key x) 1) ∅

theorem nodup_keys_counted (key : α → κ) (xs : List α) : (counted key xs).keys.Nodup :=
  nodup_keys_foldl_update key (fun _ old => old.getD 0 + 1) xs List.nodup_nil

theorem counted_concat (key : α → κ) (xs : List α) (x : α) :
    counted key (xs ++ [x]) = (counted key xs).add (key x) 1 :=
  List.foldl_concat _ _ _ _

theorem amount_counted (key : α → κ) (xs : List α) (k : κ) :
    (counted key xs).amount k = xs.countP (key · = k) := by
  induction xs using List.reverseRecOn with
  | nil => rfl
  | append_singleton xs x ih =>
    rw [counted_concat, amount_add, ih, List.countP_append, List.countP_singleton]
    simp only [decide_eq_true_eq]

/-- What has a count occurs. -/
theorem mem_keys_counted {key : α → κ} {xs : List α} {k : κ} :
    k ∈ (counted key xs).keys ↔ (counted key xs).amount k ≠ 0 := by
  induction xs using List.reverseRecOn with
  | nil => exact iff_of_false List.not_mem_nil fun h => h rfl
  | append_singleton xs x ih =>
    rw [counted_concat, mem_keys_add, ih, amount_add]
    by_cases h : key x = k
    · simp [h]
    · simp [h, Ne.symm h]

theorem sum_counted (key : α → κ) (xs : List α) : (counted key xs).values.sum = xs.length := by
  induction xs using List.reverseRecOn with
  | nil => rfl
  | append_singleton xs x ih =>
    rw [counted_concat, sum_values_add, ih, List.length_append, List.length_singleton]

/-! ## Adding counts to counts -/

/-- The counts of `t` and `t'` together. -/
def addAll (t t' : Table κ Nat) : Table κ Nat := t'.entries.foldl (fun t e => t.add e.1 e.2) t

theorem nodup_keys_addAll {t : Table κ Nat} (h : t.keys.Nodup) (t' : Table κ Nat) :
    (addAll t t').keys.Nodup :=
  nodup_keys_foldl_update (fun e : κ × Nat => e.1) (fun e old => old.getD 0 + e.2) t'.entries h

theorem mem_keys_addAll {t t' : Table κ Nat} {k : κ} :
    k ∈ (addAll t t').keys ↔ k ∈ t.keys ∨ k ∈ t'.keys := by
  obtain ⟨es⟩ := t'
  unfold addAll keys
  induction es generalizing t with
  | nil => simp
  | cons e rest ih =>
    rw [List.foldl_cons, ih, List.map_cons, List.mem_cons, ← keys, mem_keys_add, or_assoc,
      or_left_comm]
    rfl

theorem amount_of_not_mem {t : Table κ Nat} {k : κ} (h : k ∉ t.keys) : t.amount k = 0 := by
  have hnone : t.find? k = none := by
    cases hfind : t.find? k with
    | none => rfl
    | some n => exact absurd (mem_keys_iff_find?.2 ⟨n, hfind⟩) h
  rw [amount, findD, hnone]
  rfl

theorem amount_addAll (t : Table κ Nat) {t' : Table κ Nat} (h : t'.keys.Nodup) (k : κ) :
    (addAll t t').amount k = t.amount k + t'.amount k := by
  obtain ⟨es⟩ := t'
  induction es generalizing t with
  | nil => rfl
  | cons e rest ih =>
    obtain ⟨hnew, hrest⟩ := List.nodup_cons.1 h
    have hstep : addAll t ⟨e :: rest⟩ = addAll (t.add e.1 e.2) ⟨rest⟩ := rfl
    rw [hstep, ih _ hrest, amount_add, Nat.add_assoc]
    congr 1
    by_cases hk : e.1 = k
    · -- The key comes once, so that the other entries have nothing for it.
      have hnone : amount ⟨rest⟩ k = 0 := amount_of_not_mem (hk ▸ hnew)
      rw [if_pos hk, hnone]
      simp [amount, findD, find?, hk]
    · rw [if_neg hk, Nat.zero_add]
      simp [amount, findD, find?, hk]

end Deadwood.Table
