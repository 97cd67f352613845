import Deadwood.Proofs.Build
import Deadwood.Proofs.Ignored

/-!
# More calls never make more unused

Where it is not known which definition a call goes to, all that are possible are recorded as called.
This is safe: calls do not disturb the definitions of a graph (`moreCalls_ofRecords`), the roots
depend on the definitions alone (`roots_eq`), and along more calls the roots reach more
(`MoreCalls.reaches`).

* `CallGraph.MoreCalls g g'`: the second graph is the first one with more calls.
* `unused_antitone_calls`: what is unused with more calls is unused with fewer of them.
-/

namespace Deadwood

/-! ## Graphs with more calls -/

namespace CallGraph

variable {M L : Type} {g g' : CallGraph M L}

/-- The second graph is the first one with more calls. -/
structure MoreCalls (g g' : CallGraph M L) : Prop where
  nodes : g'.nodes = g.nodes
  edges : g.edges ⊆ g'.edges

namespace MoreCalls

theorem isDefined_eq (h : MoreCalls g g') (s : Symbol) : g'.isDefined s = g.isDefined s := by
  rw [isDefined, isDefined, h.nodes]

theorem definitions_eq (h : MoreCalls g g') : g'.definitions = g.definitions := by
  rw [definitions, definitions, h.nodes]

/-- A path stays one. -/
theorem reaches (h : MoreCalls g g') {a b : Symbol} (hab : g.Reaches a b) : g'.Reaches a b := by
  induction hab with
  | refl ha =>
    rw [← h.isDefined_eq] at ha
    exact .refl ha
  | step _ e hc ih =>
    rw [← h.isDefined_eq] at hc
    exact ih.step (mem_callees_iff.2 (h.edges (mem_callees_iff.1 e))) hc

theorem reach_subset (h : MoreCalls g g') (roots : List Symbol) :
    g.reach roots ⊆ g'.reach roots := by
  intro s hs
  obtain ⟨r, hr, hreach⟩ := mem_reach_iff.1 hs
  exact mem_reach_iff.2 ⟨r, hr, h.reaches hreach⟩

end MoreCalls

end CallGraph

/-! ## Records of calls -/

namespace Record

/-- The record is one of a call, well formed or not. -/
def IsCall {M L : Type} : Record M L → Prop
  | .call .. => True
  | _ => False

variable {rs calls : List (Record Meta Location)}

theorem definitions_append_calls (h : ∀ k ∈ calls, IsCall k) :
    definitions (rs ++ calls) = definitions rs := by
  have hnone : definitions calls = [] := by
    refine List.filterMap_eq_nil_iff.2 fun k hk => ?_
    cases k with
    | call caller callee site => rfl
    | definition symbol info => exact absurd (h _ hk) id
    | unknown => exact absurd (h _ hk) id
  rw [definitions, List.filterMap_append]
  exact (congrArg _ hnone).trans (List.append_nil _)

end Record

/-- **Calls do not disturb definitions**, malformed ones included. -/
theorem moreCalls_ofRecords {rs calls : List (Record Meta Location)} (h : ∀ k ∈ calls, k.IsCall) :
    CallGraph.MoreCalls (ProjectGraph.ofRecords rs) (ProjectGraph.ofRecords (rs ++ calls)) where
  nodes := by
    rw [(ProjectGraph.parts_ofRecords _).1, (ProjectGraph.parts_ofRecords _).1,
      Record.definitions_append_calls h]
  edges := by
    intro e he
    obtain ⟨l, hl⟩ := (represents_ofRecords rs).mem_edges_iff.1 he
    refine (represents_ofRecords (rs ++ calls)).mem_edges_iff.2 ⟨l, ?_⟩
    rw [Record.calls, List.filterMap_append]
    exact List.mem_append_left _ hl

/-! ## Analyses -/

namespace Analysis

open CallGraph

variable {g g' : ProjectGraph} {o : Options} {ctx ctx' : Context}

theorem describe_eq (h : MoreCalls g g') (metas : Table Symbol Meta) (s : Symbol) :
    describe g' metas s = describe g metas s := by
  rw [describe, describe, h.nodes]

theorem rootsAmong_eq (h : MoreCalls g g') (metas : Table Symbol Meta) (guess : Option RootGuess)
    (specs : List Ignore.Spec) (among : List Symbol) :
    rootsAmong g' metas guess specs among = rootsAmong g metas guess specs among := by
  induction among with
  | nil => rfl
  | cons a rest ih => rw [rootsAmong, rootsAmong, describe_eq h, ih]

/-- **The roots do not depend on the calls.** -/
theorem roots_eq (h : MoreCalls g g') (metas : Option (Table Symbol Meta))
    (guess : Option RootGuess) (specs : List Ignore.Spec) :
    roots g' (metas.getD g'.nodes) guess specs = roots g (metas.getD g.nodes) guess specs := by
  rw [roots, roots, h.definitions_eq, h.nodes, rootsAmong_eq h]

/-- The two contexts differ in the graph and in what is live. -/
theorem context_of_moreCalls (h : MoreCalls g g') (hctx : context g o = .ok ctx)
    (hctx' : context g' o = .ok ctx') :
    ctx' = { ctx with graph := g', live := g'.reach ctx.roots } ∧ ctx.live ⊆ ctx'.live := by
  obtain ⟨found, hfound, rfl⟩ := context_eq_ok hctx
  obtain ⟨found', hfound', rfl⟩ := context_eq_ok hctx'
  obtain rfl : found = found' := by
    rw [roots_eq h, hfound] at hfound'
    exact Except.ok.inj hfound'
  exact ⟨by rw [h.nodes], h.reach_subset found⟩

/-- What is unused with more calls is unused with fewer, and is reported in the same words. -/
theorem unused_of_moreCalls (h : MoreCalls g g') (hctx : context g o = .ok ctx)
    (hctx' : context g' o = .ok ctx') {f : Finding} (hf : f ∈ findings ctx' o.checks)
    (hkind : f.kind = .unused) :
    f ∈ findings ctx o.checks := by
  obtain ⟨hrest, hlive⟩ := context_of_moreCalls h hctx hctx'
  have hgraph : ctx.graph = g := graph_of_context hctx
  obtain ⟨check, hcheck, hrun⟩ := Context.mem_findings_iff.1 hf
  obtain rfl : check = .unused :=
    Context.kindOf_injective ((Context.kind_of_mem_run f hrun).symm.trans hkind)
  obtain ⟨⟨hrep, hdefined, hdead⟩, hfinding⟩ :=
    (Context.mem_run_iff (grounded_of_context hctx')).1 hrun
  refine Context.mem_findings_iff.2
    ⟨.unused, hcheck, (Context.mem_run_iff (grounded_of_context hctx)).2
    ⟨⟨hrep, ?_, fun hs => hdead (hlive hs)⟩, ?_⟩⟩
  · rw [hrest] at hdefined
    rw [hgraph, ← h.isDefined_eq]
    exact hdefined
  · rw [hfinding, hrest]
    simp only [Context.finding, Context.describe, hgraph, describe_eq h]

/-- **Recording more calls is safe.** Calls, well formed or not, that are added to records change
nothing about the roots. Where no specification fails, both analyses have a result, what is live
with fewer calls is live with more of them, and every symbol that is reported as unused with more
calls is reported so with fewer. -/
theorem unused_antitone_calls (rs calls : List (Record Meta Location))
    (hcalls : ∀ k ∈ calls, k.IsCall) (o : Options) (h : ∀ spec ∈ o.rootSpecs, spec.Total) :
    let g := ProjectGraph.ofRecords rs
    let g' := ProjectGraph.ofRecords (rs ++ calls)
    roots g' (o.metas.getD g'.nodes) o.guess o.rootSpecs =
      roots g (o.metas.getD g.nodes) o.guess o.rootSpecs ∧
    ∃ r r', analyze g o = .ok r ∧ analyze g' o = .ok r' ∧ r'.roots = r.roots ∧ r.live ⊆ r'.live ∧
      ∀ f ∈ r'.findings, f.kind = .unused → f ∈ r.findings := by
  intro g g'
  have hmore : MoreCalls g g' := moreCalls_ofRecords hcalls
  obtain ⟨ctx, hctx, -, -⟩ := exists_context g h
  obtain ⟨ctx', hctx', -, -⟩ := exists_context g' h
  obtain ⟨hrest, hlive⟩ := context_of_moreCalls hmore hctx hctx'
  refine ⟨roots_eq hmore o.metas o.guess o.rootSpecs, _, _, analyze_eq_ok_iff.2 ⟨ctx, hctx, rfl⟩,
    analyze_eq_ok_iff.2 ⟨ctx', hctx', rfl⟩, ?_, hlive,
    fun f hf hkind => unused_of_moreCalls hmore hctx hctx' hf hkind⟩
  rw [hrest]

/-- Definitions without calls. -/
def withoutCalls : List (Record Meta Location) :=
  [.definition (some ⟨"m", "main", 0⟩) (some {}), .definition (some ⟨"m", "helper", 1⟩) (some {}),
    .definition (some ⟨"m", "lost", 0⟩) (some {})]

/-- A call between them, a call by something that is no symbol, and one of a symbol that is not
resolved. -/
def furtherCalls : List (Record Meta Location) :=
  [.call (some ⟨"m", "main", 0⟩) (some ⟨"m", "helper", 1⟩) none,
    .call none (some ⟨"m", "lost", 0⟩) none,
    .call (some ⟨"m", "main", 0⟩) (some ⟨"m", "lost", -2⟩) (some ⟨"m.py", 3⟩)]

/-- Descriptions by which `main` is a root. -/
def mainExported : Options :=
  { metas := some ⟨[(⟨"m", "main", 0⟩, { «export» := true }), (⟨"m", "lost", 0⟩, { line := 7 })]⟩ }

/-- No call leads to `lost`, and it is no root. -/
theorem lost_not_live {ctx : Context}
    (hctx : context (.ofRecords (withoutCalls ++ furtherCalls)) mainExported = .ok ctx) :
    ⟨"m", "lost", 0⟩ ∉ ctx.live := by
  have hcalls : Record.calls (withoutCalls ++ furtherCalls) =
      [((⟨"m", "main", 0⟩, ⟨"m", "helper", 1⟩), {})] := rfl
  obtain ⟨found, hfound, rfl⟩ := context_eq_ok hctx
  intro hlive
  obtain ⟨r, hr, hreach⟩ := mem_reach_iff.1 hlive
  by_cases hlost : r = ⟨"m", "lost", 0⟩
  · subst hlost
    cases ((mem_rootsAmong_iff hfound).1 hr).2
  · obtain ⟨c, -, hc⟩ := hreach.exists_last hlost
    obtain ⟨l, hl⟩ := (represents_ofRecords _).mem_edges_iff.1 (mem_callees_iff.1 hc)
    simp [hcalls] at hl

/-- With the further calls `lost` is still unused, and so it is without them. -/
theorem furtherCalls_safe : (∀ k ∈ furtherCalls, k.IsCall) ∧
    ∃ r r', analyze (.ofRecords withoutCalls) mainExported = .ok r ∧
      analyze (.ofRecords (withoutCalls ++ furtherCalls)) mainExported = .ok r' ∧
        r'.roots = r.roots ∧
      ∃ f ∈ r'.findings, f.kind = .unused ∧ f.symbol = ⟨"m", "lost", 0⟩ ∧ f ∈ r.findings := by
  have hcalls : ∀ k ∈ furtherCalls, k.IsCall := by simp [furtherCalls, Record.IsCall]
  obtain ⟨-, r, r', hr, hr', hroots, -, hunused⟩ :=
    unused_antitone_calls withoutCalls furtherCalls hcalls mainExported (List.forall_mem_nil _)
  refine ⟨hcalls, r, r', hr, hr', hroots, ?_⟩
  obtain ⟨ctx, hctx, rfl⟩ := analyze_eq_ok_iff.1 hr'
  have hdefined : ctx.graph.isDefined ⟨"m", "lost", 0⟩ = true := by
    have hdefinitions : (⟨"m", "lost", 0⟩, {}) ∈
        Record.definitions (withoutCalls ++ furtherCalls) :=
      .tail _ (.tail _ (.head _))
    rw [graph_of_context hctx, isDefined_iff]
    exact (represents_ofRecords _).mem_keys_iff.2 ⟨{}, hdefinitions⟩
  have hchecks : .unused ∈ mainExported.checks.filterMap Check.ofName? := by decide +kernel
  obtain ⟨f, hf, hkind, hs⟩ := (Context.exists_finding_iff .unused).2
    ⟨hchecks, Context.exists_unused_iff.2 ⟨by decide, hdefined, lost_not_live hctx⟩⟩
  exact ⟨f, hf, hkind, hs, hunused f hf hkind⟩

end Analysis

end Deadwood
