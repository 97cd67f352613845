import Mathlib.Order.Lattice.Nat
import Deadwood.Proofs.Search

/-!
# The order in which a search sees

A search with a queue sees what is near before what is far, although an element may wait in the
queue several times and neighbours join the queue whether or not they have been seen.

* `Steps r a n b`: `n` edges lead from `a` to `b`; `distance r a b` is the least such `n`.
* `Leveled` is the invariant of the queue. Each entry is given the number of edges along which it
  was found; these levels rise along the queue and differ by at most one, and no element seen so far
  lies farther away.
* `Leveled.distance_head`: a fresh element at the front of the queue is as far away as its level
  says.
* `pairwise_visit`: from one step to the whole search.
-/

namespace Deadwood.Search

variable {α : Type}

/-- `n` edges lead from `a` to `b`. -/
inductive Steps (r : α → α → Prop) (a : α) : Nat → α → Prop
  | refl : Steps r a 0 a
  | tail {n : Nat} {b c : α} (h : Steps r a n b) (e : r b c) : Steps r a (n + 1) c

theorem exists_steps_iff {r : α → α → Prop} {a b : α} :
    (∃ n, Steps r a n b) ↔ Relation.ReflTransGen r a b := by
  constructor
  · rintro ⟨n, h⟩
    induction h with
    | refl => exact .refl
    | tail _ e ih => exact ih.tail e
  · intro h
    induction h with
    | refl => exact ⟨0, .refl⟩
    | tail _ e ih =>
      obtain ⟨n, hn⟩ := ih
      exact ⟨n + 1, hn.tail e⟩

/-- The least number of edges that lead from `a` to `b`, where any do. -/
noncomputable def distance (r : α → α → Prop) (a b : α) : Nat := sInf {n | Steps r a n b}

theorem distance_le {r : α → α → Prop} {a b : α} {n : Nat} (h : Steps r a n b) :
    distance r a b ≤ n :=
  Nat.sInf_le h

theorem steps_distance {r : α → α → Prop} {a b : α} (h : Relation.ReflTransGen r a b) :
    Steps r a (distance r a b) b :=
  Nat.sInf_mem (exists_steps_iff.2 h)

theorem distance_eq {r : α → α → Prop} {a b : α} {n : Nat} (h : Steps r a n b)
    (hleast : ∀ m, Steps r a m b → n ≤ m) : distance r a b = n :=
  le_antisymm (distance_le h) (hleast _ (steps_distance (exists_steps_iff.1 ⟨n, h⟩)))

/-- `order` lists what edges reach from `c`, each element once, `c` first and the nearer ones before
the farther ones. -/
structure NearestFirst (r : α → α → Prop) (c : α) (order : List α) : Prop where
  head : order.head? = some c
  nodup : order.Nodup
  mem_iff : ∀ x, x ∈ order ↔ Relation.ReflTransGen r c x
  ordered : order.Pairwise fun x y => distance r c x ≤ distance r c y

/-! ## The invariant of the queue -/

section Queue

variable {within : List α} {next : α → List α} {c : α}

/-- A search from `c` in progress. Each element of the queue carries its level, the number of edges
along which it was found. -/
structure Leveled (within : List α) (next : α → List α) (c : α) (queue : List (α × Nat))
    (seen : List α) : Prop where
  start : c ∈ seen
  /-- An element inside can be reached along as many edges as its level says. -/
  found : ∀ a ∈ queue, a.1 ∈ within → Steps (Edge within next) c a.2 a.1
  rising : queue.Pairwise fun a b => a.2 ≤ b.2
  narrow : ∀ a ∈ queue, ∀ b ∈ queue, b.2 ≤ a.2 + 1
  /-- What has been seen lies no farther away than the levels of the queue. -/
  near : ∀ x ∈ seen, ∀ a ∈ queue, distance (Edge within next) c x ≤ a.2
  /-- What is next to an element seen is seen or waits one level farther away at most. -/
  waits : ∀ x ∈ seen, ∀ y, Edge within next x y →
    y ∈ seen ∨ ∃ a ∈ queue, a.1 = y ∧ a.2 ≤ distance (Edge within next) c x + 1
  listed : seen.Pairwise fun later earlier =>
    distance (Edge within next) c earlier ≤ distance (Edge within next) c later

theorem Leveled.init (within : List α) (next : α → List α) (c : α) :
    Leveled within next c ((next c).map (·, 1)) [c] where
  start := List.mem_singleton_self c
  found := by
    intro a ha hin
    obtain ⟨y, hy, rfl⟩ := List.mem_map.1 ha
    exact Steps.refl.tail ⟨hy, hin⟩
  rising := List.pairwise_map.2 (List.pairwise_of_forall fun _ _ => le_rfl)
  narrow := by
    intro a ha b hb
    obtain ⟨y, -, rfl⟩ := List.mem_map.1 ha
    obtain ⟨z, -, rfl⟩ := List.mem_map.1 hb
    exact Nat.le_succ 1
  near := by
    intro x hx a _
    rw [List.mem_singleton.1 hx]
    exact (distance_le .refl).trans (Nat.zero_le _)
  waits := by
    intro x hx y hy
    rw [List.mem_singleton.1 hx] at hy
    exact .inr ⟨(y, 1), List.mem_map_of_mem hy.1, rfl, Nat.le_add_left 1 _⟩
  listed := List.pairwise_singleton _ _

variable {x : α} {n : Nat} {rest : List (α × Nat)} {seen : List α}

theorem Leveled.head_le (h : Leveled within next c ((x, n) :: rest) seen) :
    ∀ a ∈ (x, n) :: rest, n ≤ a.2 := by
  intro a ha
  rcases List.mem_cons.1 ha with rfl | ha
  · exact le_rfl
  · exact (List.pairwise_cons.1 h.rising).1 a ha

/-- Whatever lies nearer than the front of the queue has been seen. -/
theorem Leveled.seen_of_nearer (h : Leveled within next c ((x, n) :: rest) seen) {m : Nat} {y : α}
    (hy : Steps (Edge within next) c m y) : y ∈ seen ∨ n ≤ m := by
  -- along the path: where its last edge leaves what has been seen, the queue holds its end
  induction hy with
  | refl => exact .inl h.start
  | tail hz e ih =>
    rcases ih with hseen | hle
    · rcases h.waits _ hseen _ e with hy | ⟨a, ha, -, hlevel⟩
      · exact .inl hy
      · have hdist := distance_le hz
        have hhead := h.head_le a ha
        exact .inr (by omega)
    · exact .inr (Nat.le_succ_of_le hle)

/-- A fresh element at the front of the queue is as far away as its level says. -/
theorem Leveled.distance_head (h : Leveled within next c ((x, n) :: rest) seen) (hin : x ∈ within)
    (hnew : x ∉ seen) : distance (Edge within next) c x = n :=
  distance_eq (h.found _ List.mem_cons_self hin) fun _ hm => (h.seen_of_nearer hm).resolve_left hnew

/-- A fresh element is seen, and its neighbours queue up one level farther away. -/
theorem Leveled.fresh (h : Leveled within next c ((x, n) :: rest) seen) (hin : x ∈ within)
    (hnew : x ∉ seen) :
    Leveled within next c (rest ++ (next x).map (·, n + 1)) (x :: seen) := by
  have hdist := h.distance_head hin hnew
  have hmem : ∀ a ∈ rest ++ (next x).map (·, n + 1), a ∈ rest ∨ a.1 ∈ next x ∧ a.2 = n + 1 := by
    intro a ha
    rcases List.mem_append.1 ha with ha | ha
    · exact .inl ha
    · obtain ⟨y, hy, rfl⟩ := List.mem_map.1 ha
      exact .inr ⟨hy, rfl⟩
  have hlow : ∀ a ∈ rest ++ (next x).map (·, n + 1), n ≤ a.2 := by
    intro a ha
    rcases hmem a ha with ha | ⟨-, ha⟩
    · exact h.head_le a (List.mem_cons_of_mem _ ha)
    · omega
  have hhigh : ∀ a ∈ rest ++ (next x).map (·, n + 1), a.2 ≤ n + 1 := by
    intro a ha
    rcases hmem a ha with ha | ⟨-, ha⟩
    · exact h.narrow _ List.mem_cons_self a (List.mem_cons_of_mem _ ha)
    · exact ha.le
  have hnear : ∀ z ∈ x :: seen, distance (Edge within next) c z ≤ n := by
    intro z hz
    rcases List.mem_cons.1 hz with rfl | hz
    · exact hdist.le
    · exact h.near z hz _ List.mem_cons_self
  refine ⟨List.mem_cons_of_mem _ h.start, ?_, ?_, ?_, ?_, ?_, ?_⟩
  · intro a ha hw
    rcases hmem a ha with ha | ⟨hy, ha⟩
    · exact h.found a (List.mem_cons_of_mem _ ha) hw
    · rw [ha]
      exact (h.found _ List.mem_cons_self hin).tail ⟨hy, hw⟩
  · refine List.pairwise_append.2 ⟨(List.pairwise_cons.1 h.rising).2, ?_, ?_⟩
    · exact List.pairwise_map.2 (List.pairwise_of_forall fun _ _ => le_rfl)
    · intro a ha b hb
      obtain ⟨y, -, rfl⟩ := List.mem_map.1 hb
      exact hhigh a (List.mem_append_left _ ha)
  · intro a ha b hb
    have hlow := hlow a ha
    have hhigh := hhigh b hb
    omega
  · exact fun z hz a ha => (hnear z hz).trans (hlow a ha)
  · intro z hz y hy
    rcases List.mem_cons.1 hz with rfl | hz
    · exact .inr ⟨(y, n + 1), List.mem_append_right _ (List.mem_map_of_mem hy.1),
        rfl, by rw [hdist]⟩
    · rcases h.waits z hz y hy with hy | ⟨a, ha, rfl, hle⟩
      · exact .inl (List.mem_cons_of_mem _ hy)
      · rcases List.mem_cons.1 ha with rfl | ha
        · exact .inl List.mem_cons_self
        · exact .inr ⟨a, List.mem_append_left _ ha, rfl, hle⟩
  · refine List.pairwise_cons.2 ⟨fun z hz => ?_, h.listed⟩
    rw [hdist]
    exact hnear z (List.mem_cons_of_mem _ hz)

/-- An element that is seen or lies outside leaves the queue. -/
theorem Leveled.skip (h : Leveled within next c ((x, n) :: rest) seen)
    (hold : ¬ (x ∈ within ∧ x ∉ seen)) :
    Leveled within next c rest seen where
  start := h.start
  found a ha := h.found a (List.mem_cons_of_mem _ ha)
  rising := (List.pairwise_cons.1 h.rising).2
  narrow a ha b hb := h.narrow a (List.mem_cons_of_mem _ ha) b (List.mem_cons_of_mem _ hb)
  near z hz a ha := h.near z hz a (List.mem_cons_of_mem _ ha)
  waits := by
    intro z hz y hy
    rcases h.waits z hz y hy with hseen | ⟨a, ha, rfl, hle⟩
    · exact .inl hseen
    · rcases List.mem_cons.1 ha with rfl | ha
      · exact .inl (Classical.byContradiction fun hnew => hold ⟨hy.2, hnew⟩)
      · exact .inr ⟨a, ha, rfl, hle⟩
  listed := h.listed

/-- A search lists the farther elements, which it sees later, before the nearer ones. -/
theorem pairwise_visit [DecidableEq α] {queue : List (α × Nat)} {seen : List α}
    (h : Leveled within next c queue seen) :
    (visit within next (queue.map Prod.fst) seen).Pairwise fun later earlier =>
      distance (Edge within next) c earlier ≤ distance (Edge within next) c later := by
  generalize htodo : queue.map Prod.fst = todo
  fun_induction visit within next todo seen generalizing queue with
  | case1 seen => exact h.listed
  | case2 seen x rest hx ih =>
    obtain ⟨⟨x, n⟩, queue, rfl, rfl, rfl⟩ := List.map_eq_cons_iff.1 htodo
    refine ih (h.fresh hx.1 hx.2) ?_
    simp [Function.comp_def]
  | case3 seen x rest hx ih =>
    obtain ⟨⟨x, n⟩, queue, rfl, rfl, rfl⟩ := List.map_eq_cons_iff.1 htodo
    exact ih (h.skip hx) rfl

end Queue

end Deadwood.Search
