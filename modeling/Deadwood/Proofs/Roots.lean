import Deadwood.Analysis
import Deadwood.Proofs.Reach

/-!
# The roots of an analysis

`rootsAmong` stops at the first specification that fails. Where no specification fails it has a
result, and the result holds the definitions that `isRoot` accepts (`mem_rootsAmong_iff`).
`Context.Grounded` is what the checks of an analysis rely on afterwards; `context` makes grounded
contexts only.
-/

namespace Deadwood.Ignore

/-- The specification answers for every symbol; only a predicate can fail to. -/
def Spec.Total (spec : Spec) : Prop := ∀ s info, ∃ b, spec.matches s info = .ok b

theorem exists_matchesAny {specs : List Spec} (h : ∀ spec ∈ specs, spec.Total) (s : Symbol)
    (info : Option Meta) : ∃ b, matchesAny specs s info = .ok b := by
  induction specs with
  | nil => exact ⟨false, rfl⟩
  | cons spec rest ih =>
    obtain ⟨b, hb⟩ := h spec List.mem_cons_self s info
    obtain ⟨b', hb'⟩ := ih fun spec' hs => h spec' (List.mem_cons_of_mem _ hs)
    cases b with
    | true => exact ⟨true, by rw [matchesAny, hb]; rfl⟩
    | false => exact ⟨b', by rw [matchesAny, hb]; exact hb'⟩

end Deadwood.Ignore

namespace Deadwood.Analysis

open CallGraph

variable (g : ProjectGraph) (metas : Table Symbol Meta) (guess : Option RootGuess)
  {specs : List Ignore.Spec}

theorem exists_isRoot (h : ∀ spec ∈ specs, spec.Total) (s : Symbol) (info : Meta) :
    ∃ b, isRoot guess specs s info = .ok b := by
  unfold isRoot
  split
  · exact ⟨false, rfl⟩
  split
  · exact ⟨true, rfl⟩
  split
  · exact ⟨true, rfl⟩
  · exact Ignore.exists_matchesAny h s (some info)

theorem exists_rootsAmong {among : List Symbol}
    (h : ∀ s ∈ among, ∃ b, isRoot guess specs s (describe g metas s) = .ok b) :
    ∃ found, rootsAmong g metas guess specs among = .ok found := by
  induction among with
  | nil => exact ⟨[], rfl⟩
  | cons a rest ih =>
    obtain ⟨⟨b, hb⟩, hrest⟩ := List.forall_mem_cons.1 h
    obtain ⟨others, ho⟩ := ih hrest
    exact ⟨if b then a :: others else others, by rw [rootsAmong, hb, ho]; rfl⟩

variable {g metas guess} in
theorem mem_rootsAmong_iff {among found : List Symbol}
    (h : rootsAmong g metas guess specs among = .ok found) {s : Symbol} :
    s ∈ found ↔ s ∈ among ∧ isRoot guess specs s (describe g metas s) = .ok true := by
  induction among generalizing found with
  | nil =>
    cases h
    simp
  | cons a rest ih =>
    simp only [rootsAmong, bind, Except.bind, pure, Except.pure] at h
    split at h
    · cases h
    · rename_i b hb
      split at h
      · cases h
      · rename_i others ho
        cases h
        cases b with
        | true =>
          simp only [if_true, List.mem_cons, ih ho]
          constructor
          · rintro (rfl | ⟨hs, hr⟩)
            · exact ⟨.inl rfl, hb⟩
            · exact ⟨.inr hs, hr⟩
          · rintro ⟨rfl | hs, hr⟩
            · exact .inl rfl
            · exact .inr ⟨hs, hr⟩
        | false =>
          simp only [Bool.false_eq_true, if_false, List.mem_cons, ih ho]
          constructor
          · rintro ⟨hs, hr⟩
            exact ⟨.inr hs, hr⟩
          · rintro ⟨rfl | hs, hr⟩
            · rw [hb] at hr
              cases hr
            · exact ⟨hs, hr⟩

/-! ## The context of the checks -/

/-- The roots are definitions, and what is live is what they reach. -/
structure Context.Grounded (ctx : Context) : Prop where
  roots_defined : ∀ s ∈ ctx.roots, ctx.graph.isDefined s = true
  live_eq : ctx.live = ctx.graph.reach ctx.roots

theorem exists_context {o : Options} (h : ∀ spec ∈ o.rootSpecs, spec.Total) :
    ∃ ctx, context g o = .ok ctx ∧ ctx.graph = g ∧ ctx.Grounded := by
  obtain ⟨found, hf⟩ : ∃ found,
      rootsAmong g (o.metas.getD g.nodes) o.guess o.rootSpecs g.definitions = .ok found :=
    exists_rootsAmong g _ o.guess fun s _ => exists_isRoot o.guess h s _
  refine ⟨_, by rw [context, roots, hf]; rfl, rfl, fun s hs => ?_, rfl⟩
  exact isDefined_iff.2 ((mem_rootsAmong_iff hf).1 hs).1

theorem Context.mem_live_iff {ctx : Context} (hc : ctx.Grounded) {s : Symbol} :
    s ∈ ctx.live ↔ ∃ r ∈ ctx.roots, ctx.graph.Reaches r s := by
  rw [hc.live_eq, mem_reach_iff]

end Deadwood.Analysis
