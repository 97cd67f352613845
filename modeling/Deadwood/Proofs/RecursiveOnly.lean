import Mathlib.Data.List.Permutation
import Deadwood.Proofs.Components
import Deadwood.Proofs.Roots

/-!
# Cycles that nothing live uses

The check `Check.recursiveOnly` asks of a component whether it has a cycle, holds no root and has no
live caller outside; it never asks whether a member is live. `isSelfContained_iff` shows that this
comes to the same: a path from a root to a member either starts in the component or enters it by a
call, and the caller is then live and outside. The check therefore reports exactly the definitions
on a cycle that no root reaches (`recursiveOnly_exact`), and each of them is unused as well.
-/

namespace Deadwood.Analysis

open CallGraph

namespace Context

variable {ctx : Context} {members : List Symbol} {s : Symbol}

/-! ## Cyclic components -/

/-- A component has a cycle if and only if its members lie on one. -/
theorem isCyclic_iff (hm : members ∈ ctx.graph.components) (hs : s ∈ members) :
    isCyclic ctx.graph members = true ↔ ctx.graph.OnCycle s := by
  have hd : ctx.graph.isDefined s = true := (reaches_of_mem_component hm hs hs).left
  match members, hs with
  | [a], hs =>
    obtain rfl := List.mem_singleton.1 hs
    simp only [isCyclic, List.contains_iff_mem]
    constructor
    · exact fun h => ⟨s, .refl hd, h⟩
    · rintro ⟨t, ht, e⟩
      -- the symbol before `s` on the cycle is a member, hence `s` itself
      have hback : ctx.graph.Reaches t s := (Reaches.refl ht.right).step e hd
      obtain rfl := List.mem_singleton.1 (mem_component_of_reaches hm hs ht hback)
      exact e
  | a :: b :: rest, hs =>
    have hne : a ≠ b := by
      have := component_nodup hm
      simp only [List.nodup_cons, List.mem_cons, not_or] at this
      exact this.1.1
    have : isCyclic ctx.graph (a :: b :: rest) = true := by simp [isCyclic]
    simp only [this, true_iff]
    by_cases h : s = a
    · have hb : b ∈ a :: b :: rest := by simp
      exact .of_ne (h ▸ hne) (reaches_of_mem_component hm hs hb) (reaches_of_mem_component hm hb hs)
    · have ha : a ∈ a :: b :: rest := by simp
      exact .of_ne h (reaches_of_mem_component hm hs ha) (reaches_of_mem_component hm ha hs)

/-- A root in a component, or a live caller outside it, is what makes a member live. -/
theorem live_of_entered (hc : ctx.Grounded) (hs : s ∈ members) (hl : s ∈ ctx.live) :
    (∃ r ∈ members, r ∈ ctx.roots) ∨
      ∃ d ∈ members, ∃ c ∈ ctx.graph.callers d, c ∉ members ∧ c ∈ ctx.live := by
  obtain ⟨r, hr, h⟩ := (mem_live_iff hc).1 hl
  rcases h.enters hs with h | ⟨c, hout, d, hd, hrc, e⟩
  · exact .inl ⟨r, h, hr⟩
  · exact .inr ⟨d, hd, c, mem_callers_iff_mem_callees.2 e, hout, (mem_live_iff hc).2 ⟨r, hr, hrc⟩⟩

/-- **A component is used only by itself** if and only if its members lie on cycles and no root
reaches them. -/
theorem isSelfContained_iff (hc : ctx.Grounded) (hm : members ∈ ctx.graph.components) :
    ctx.isSelfContained members = true ↔
      ∀ s ∈ members, ctx.graph.OnCycle s ∧ ∀ r ∈ ctx.roots, ¬ ctx.graph.Reaches r s := by
  simp only [isSelfContained, Bool.and_eq_true, Bool.not_eq_true', List.any_eq_false,
    List.contains_iff_mem, List.mem_flatMap, not_and]
  constructor
  · rintro ⟨⟨hcyc, hroot⟩, hout⟩ s hs
    refine ⟨(isCyclic_iff hm hs).1 hcyc, fun r hr h => ?_⟩
    rcases live_of_entered hc hs ((mem_live_iff hc).2 ⟨r, hr, h⟩) with
      ⟨r, hrm, hr⟩ | ⟨d, hd, c, hcall, hcm, hl⟩
    · exact hroot r hrm hr
    · exact hout c ⟨d, hd, hcall⟩ (by simpa using hcm) hl
  · intro h
    obtain ⟨a, ha⟩ := component_ne_nil hm
    refine ⟨⟨(isCyclic_iff hm ha).2 (h a ha).1, fun r hrm hr => ?_⟩, ?_⟩
    · exact (h r hrm).2 r hr (.refl (hc.roots_defined r hr))
    · rintro c ⟨d, hd, hcall⟩ - hl
      obtain ⟨r, hr, hrc⟩ := (mem_live_iff hc).1 hl
      have hdef : ctx.graph.isDefined d = true := (reaches_of_mem_component hm hd hd).left
      exact (h d hd).2 r hr (hrc.step (mem_callers_iff_mem_callees.1 hcall) hdef)

/-! ## Findings -/

theorem exists_recursiveOnly_iff (hc : ctx.Grounded) :
    (∃ f ∈ ctx.recursiveOnly, f.symbol = s) ↔
      reportable s = true ∧ ctx.graph.OnCycle s ∧ s ∉ ctx.live := by
  simp only [recursiveOnly, List.mem_flatMap, List.mem_filter, List.mem_map]
  constructor
  · rintro ⟨f, ⟨members, ⟨hm, hself⟩, t, ⟨ht, hrep⟩, rfl⟩, rfl⟩
    obtain ⟨hcyc, hun⟩ := (isSelfContained_iff hc hm).1 hself t ht
    refine ⟨hrep, hcyc, fun hl => ?_⟩
    obtain ⟨r, hr, h⟩ := (mem_live_iff hc).1 hl
    exact hun r hr h
  · rintro ⟨hrep, hcyc, hl⟩
    obtain ⟨members, hm, hs⟩ := exists_component hcyc.isDefined
    refine ⟨_, ⟨members, ⟨hm, (isSelfContained_iff hc hm).2 fun t ht => ⟨?_, fun r hr h => hl ?_⟩⟩,
      s, ⟨hs, hrep⟩, rfl⟩, rfl⟩
    · exact (isCyclic_iff hm ht).1 ((isCyclic_iff hm hs).2 hcyc)
    · exact (mem_live_iff hc).2 ⟨r, hr, h.trans (reaches_of_mem_component hm ht hs)⟩

theorem exists_unused_iff : (∃ f ∈ ctx.unused, f.symbol = s) ↔
    reportable s = true ∧ ctx.graph.isDefined s = true ∧ s ∉ ctx.live := by
  simp only [unused, List.mem_map, List.mem_filter, Bool.and_eq_true, Bool.not_eq_true',
    ← isDefined_iff]
  constructor
  · rintro ⟨f, ⟨t, ⟨hd, hl, hrep⟩, rfl⟩, rfl⟩
    have hl : t ∉ ctx.live := by simpa using hl
    exact ⟨hrep, hd, hl⟩
  · rintro ⟨hrep, hd, hl⟩
    exact ⟨_, ⟨s, ⟨hd, by simpa using hl, hrep⟩, rfl⟩, rfl⟩

/-- The kind that the findings of a check have. -/
def kindOf : Check → FindingKind
  | .narrowable => .narrowable
  | .unused => .unused
  | .recursiveOnly => .recursiveOnly

theorem kind_of_mem_run {check : Check} : ∀ f ∈ ctx.run check, f.kind = kindOf check := by
  intro f hf
  cases check with
  | narrowable | unused =>
    obtain ⟨s, -, rfl⟩ := List.mem_map.1 hf
    rfl
  | recursiveOnly =>
    obtain ⟨members, -, hf⟩ := List.mem_flatMap.1 hf
    obtain ⟨s, -, rfl⟩ := List.mem_map.1 hf
    rfl

theorem kindOf_injective : Function.Injective kindOf := by
  intro a b h
  cases a <;> cases b <;> first | rfl | cases h

/-- The findings of a kind are those of the check of that kind, if it is asked for. -/
theorem exists_finding_iff {checks : List String} (check : Check) :
    (∃ f ∈ findings ctx checks, f.kind = kindOf check ∧ f.symbol = s) ↔
      check ∈ checks.filterMap Check.ofName? ∧ ∃ f ∈ ctx.run check, f.symbol = s := by
  simp only [findings, List.mem_mergeSort, List.mem_flatMap]
  constructor
  · rintro ⟨f, ⟨c, hc, hf⟩, hk, rfl⟩
    obtain rfl := kindOf_injective ((kind_of_mem_run f hf).symm.trans hk)
    exact ⟨hc, f, hf, rfl⟩
  · rintro ⟨hc, f, hf, rfl⟩
    exact ⟨f, ⟨check, hc, hf⟩, kind_of_mem_run f hf, rfl⟩

end Context

open Context in
/-- **What the check for recursion reports.** Where no specification fails, the analysis has a
result. It reports a symbol as used only by itself if and only if the check is asked for and the
symbol is a definition, other than a module's own code, that lies on a cycle and is not live. Every
such symbol is unused, and the test that is made of a component says that its members lie on cycles
and that no root reaches them. -/
theorem recursiveOnly_exact (g : ProjectGraph) (o : Options)
    (h : ∀ spec ∈ o.rootSpecs, spec.Total) :
    ∃ ctx, context g o = .ok ctx ∧
      analyze g o = .ok ⟨findings ctx o.checks, ctx.roots, ctx.live⟩ ∧
      (∀ s, (∃ f ∈ findings ctx o.checks, f.kind = .recursiveOnly ∧ f.symbol = s) ↔
        Check.recursiveOnly ∈ o.checks.filterMap Check.ofName? ∧ g.isDefined s = true ∧
          s.name ≠ Symbol.bodyName ∧ g.OnCycle s ∧ s ∉ ctx.live) ∧
      (∀ s, (∃ f ∈ ctx.recursiveOnly, f.symbol = s) → ∃ f ∈ ctx.unused, f.symbol = s) ∧
      ∀ members ∈ g.components, ctx.isSelfContained members = true ↔
        ∀ s ∈ members, g.OnCycle s ∧ ∀ r ∈ ctx.roots, ¬ g.Reaches r s := by
  obtain ⟨ctx, hctx, rfl, hc⟩ := exists_context g h
  have hreport : ∀ s, reportable s = true ↔ s.name ≠ Symbol.bodyName := by simp [reportable]
  refine ⟨ctx, hctx, ?_, fun s => ?_, fun s hs => ?_, fun members hm => isSelfContained_iff hc hm⟩
  · rw [analyze, hctx]
    rfl
  · refine (exists_finding_iff .recursiveOnly).trans (and_congr_right fun _ => ?_)
    refine (exists_recursiveOnly_iff hc).trans ?_
    rw [hreport]
    exact ⟨fun h => ⟨h.2.1.isDefined, h⟩, fun h => h.2⟩
  · obtain ⟨hrep, hcyc, hl⟩ := (exists_recursiveOnly_iff hc).1 hs
    exact exists_unused_iff.2 ⟨hrep, hcyc.isDefined, hl⟩

/-- An exported `run` that calls nothing, and a `stale` that calls into the cycle of `ping` and
`pong`; `ping` also calls something that is not defined. -/
def deadCycle : ProjectGraph where
  nodes :=
    ⟨[(⟨"m", "ping", 0⟩, {}), (⟨"m", "pong", 1⟩, {}), (⟨"m", "run", 0⟩, { «export» := true }),
    (⟨"m", "stale", 0⟩, {})]⟩
  sites :=
    ⟨[((⟨"m", "stale", 0⟩, ⟨"m", "ping", 0⟩), []), ((⟨"m", "ping", 0⟩, ⟨"m", "pong", 1⟩), []),
    ((⟨"m", "pong", 1⟩, ⟨"m", "ping", 0⟩), []), ((⟨"m", "ping", 0⟩, ⟨"os", "getpid", 0⟩), [])]⟩
  dropped := 0

theorem deadCycle_reported : ∃ r, analyze deadCycle {} = .ok r ∧ r.live = [⟨"m", "run", 0⟩] ∧
    ∃ f ∈ r.findings, f.kind = .recursiveOnly ∧ f.symbol = ⟨"m", "ping", 0⟩ := by
  obtain ⟨ctx, hctx, han, hfind, -⟩ := recursiveOnly_exact deadCycle {} (by simp)
  have hlive : ctx.live = [⟨"m", "run", 0⟩] := by
    have hreach : deadCycle.reach [⟨"m", "run", 0⟩] = [⟨"m", "run", 0⟩] := by cbv
    cases hctx
    exact hreach
  have hping : deadCycle.Reaches ⟨"m", "ping", 0⟩ ⟨"m", "ping", 0⟩ := .refl (by decide)
  refine ⟨_, han, hlive, (hfind _).2 ⟨by decide +kernel, by decide, by decide, ?_, by simp [hlive]⟩⟩
  exact ⟨⟨"m", "pong", 1⟩, hping.step (by decide) (by decide), by decide⟩

end Deadwood.Analysis
