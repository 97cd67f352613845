import Mathlib.Order.Bounds.Defs
import Deadwood.Graph.Reach
import Deadwood.Proofs.Search
import Deadwood.Proofs.Table

/-!
# Reachable definitions and cycles

`mem_reach_iff`: the list `CallGraph.reach` holds exactly what the relation `CallGraph.Reaches`
relates to one of the given symbols, and `reach_exact` that this is the least set of definitions
that contains the roots and is closed under calls. The rest of the module is the theory of `Reaches`
that the checks rest on: paths compose, a path between two symbols ends with a call, and a path into
a set of symbols starts in the set or enters it by a call from outside (`Reaches.enters`).
-/

namespace Deadwood.CallGraph

variable {M L : Type} {g : CallGraph M L} {a b c s : Symbol}

theorem isDefined_iff : g.isDefined s = true ↔ s ∈ g.definitions := Table.contains_iff_mem_keys

theorem mem_callees_iff : b ∈ g.callees a ↔ (a, b) ∈ g.edges := g.mem_succ_iff a b

theorem mem_callers_iff : a ∈ g.callers b ↔ (a, b) ∈ g.edges := g.mem_pred_iff a b

/-- The two views of an edge. -/
theorem mem_callers_iff_mem_callees : a ∈ g.callers b ↔ b ∈ g.callees a :=
  mem_callers_iff.trans mem_callees_iff.symm

/-! ## Paths -/

namespace Reaches

theorem left (h : g.Reaches a b) : g.isDefined a = true := by
  induction h with
  | refl ha => exact ha
  | step _ _ _ ih => exact ih

theorem right (h : g.Reaches a b) : g.isDefined b = true := by
  cases h with
  | refl ha => exact ha
  | step _ _ hc => exact hc

theorem trans (h₁ : g.Reaches a b) (h₂ : g.Reaches b c) : g.Reaches a c := by
  induction h₂ with
  | refl => exact h₁
  | step _ e hc ih => exact ih.step e hc

/-- A path to another symbol ends with a call. -/
theorem exists_last (h : g.Reaches a b) (hne : a ≠ b) : ∃ c, g.Reaches a c ∧ b ∈ g.callees c := by
  cases h with
  | refl => exact absurd rfl hne
  | step h e _ => exact ⟨_, h, e⟩

/-- A set that contains with a symbol the definitions that it calls contains what its members
reach. -/
theorem mem_of_closed {S : Set Symbol}
    (hS : ∀ s ∈ S, ∀ t ∈ g.callees s, g.isDefined t = true → t ∈ S)
    (h : g.Reaches a b) (ha : a ∈ S) : b ∈ S := by
  induction h with
  | refl => exact ha
  | step _ e hc ih => exact hS _ ih _ e hc

/-- A path into a set starts in it, or has a call that enters it from outside. -/
theorem enters {members : List Symbol} (h : g.Reaches a b) (hb : b ∈ members) :
    a ∈ members ∨ ∃ c ∉ members, ∃ d ∈ members, g.Reaches a c ∧ d ∈ g.callees c := by
  induction h with
  | refl => exact .inl hb
  | @step b d h e _ ih =>
    by_cases hm : b ∈ members
    · exact ih hm
    · exact .inr ⟨b, hm, d, hb, h, e⟩

end Reaches

/-- `s` lies on a cycle: a path leads from `s` to a symbol that calls `s`, all of its symbols being
defined. -/
def OnCycle (g : CallGraph M L) (s : Symbol) : Prop := ∃ t, g.Reaches s t ∧ s ∈ g.callees t

theorem OnCycle.isDefined (h : g.OnCycle s) : g.isDefined s = true := by
  obtain ⟨t, ht, -⟩ := h
  exact ht.left

/-- Two symbols that reach each other lie on a cycle. -/
theorem OnCycle.of_ne (hne : a ≠ b) (hab : g.Reaches a b) (hba : g.Reaches b a) : g.OnCycle a := by
  obtain ⟨t, ht, e⟩ := hba.exists_last hne.symm
  exact ⟨t, hab.trans ht, e⟩

/-! ## The search -/

/-- A path of calls between definitions is a path of the search that `reach` makes. -/
theorem reaches_iff_reflTransGen : g.Reaches a b ↔
    a ∈ g.definitions ∧ Relation.ReflTransGen (Search.Edge g.definitions g.callees) a b := by
  constructor
  · intro h
    refine ⟨isDefined_iff.1 h.left, ?_⟩
    induction h with
    | refl => exact .refl
    | step _ e hc ih => exact ih.tail ⟨e, isDefined_iff.1 hc⟩
  · rintro ⟨ha, h⟩
    induction h with
    | refl => exact .refl (isDefined_iff.2 ha)
    | tail _ e ih => exact ih.step e.1 (isDefined_iff.2 e.2)

/-- **The reached symbols** are those that a path leads to from one of the roots. -/
theorem mem_reach_iff {roots : List Symbol} : s ∈ g.reach roots ↔ ∃ r ∈ roots, g.Reaches r s := by
  rw [reach, Search.mem_visit_iff _ _ (Search.Pending.nil _ _ _)]
  constructor
  · rintro ⟨r, hr | ⟨hr, hd⟩, h⟩
    · cases hr
    · exact ⟨r, hr, reaches_iff_reflTransGen.2 ⟨hd, h⟩⟩
  · rintro ⟨r, hr, h⟩
    obtain ⟨hd, h⟩ := reaches_iff_reflTransGen.1 h
    exact ⟨r, .inr ⟨hr, hd⟩, h⟩

/-- A set of definitions that contains the defined roots, and with a symbol the definitions that it
calls. -/
structure Closed (g : CallGraph M L) (roots : List Symbol) (S : Set Symbol) : Prop where
  defined : ∀ s ∈ S, g.isDefined s = true
  roots : ∀ r ∈ roots, g.isDefined r = true → r ∈ S
  callees : ∀ s ∈ S, ∀ t ∈ g.callees s, g.isDefined t = true → t ∈ S

theorem closed_reach (g : CallGraph M L) (roots : List Symbol) :
    Closed g roots {s | s ∈ g.reach roots} where
  defined s hs := by
    obtain ⟨r, -, h⟩ := mem_reach_iff.1 hs
    exact h.right
  roots r hr hd := mem_reach_iff.2 ⟨r, hr, .refl hd⟩
  callees s hs t ht hd := by
    obtain ⟨r, hr, h⟩ := mem_reach_iff.1 hs
    exact mem_reach_iff.2 ⟨r, hr, h.step ht hd⟩

/-- **What roots reach.** For any roots, defined or not and with repetitions, `reach` lists without
repetition the symbols to which a path of calls between definitions leads from a root. They are the
least set of definitions that contains the defined roots and is closed under calls of
definitions. -/
theorem reach_exact (g : CallGraph M L) (roots : List Symbol) :
    (g.reach roots).Nodup ∧
      (∀ s, s ∈ g.reach roots ↔ ∃ r ∈ roots, g.isDefined r = true ∧ g.Reaches r s) ∧
      IsLeast {S | Closed g roots S} {s | s ∈ g.reach roots} := by
  refine ⟨Search.visit_nodup _ _ _ _ List.nodup_nil, fun s => ?_, closed_reach g roots,
    fun S hS s hs => ?_⟩
  · rw [mem_reach_iff]
    exact exists_congr fun r => and_congr_right fun _ => ⟨fun h => ⟨h.left, h⟩, fun h => h.2⟩
  · obtain ⟨r, hr, h⟩ := mem_reach_iff.1 hs
    exact h.mem_of_closed hS.callees (hS.roots r hr h.left)

end Deadwood.CallGraph
