import Deadwood.Proofs.Ignored
import Deadwood.Proofs.Order

/-!
# The list of findings is canonical

The checks give their findings in orders of their own, and a stable sort merges them. That the
result does not depend on the order of the checks rests on two facts: a finding is determined by its
symbol and its reason (`eq_of_mem_findings`), and so findings at the same place of the order are
equal; and no check reports a symbol twice (`symbols_run_nodup`), because definitions are listed
once and components are disjoint.

* `findings_pairwise_le`: the findings are in order.
* `findings_eq_of_perm`: the order of the checks does not matter.
* `keys_findings_nodup`: different checks report no symbol twice for the same reason.
* `findings_canonical`: the three together, for whole analyses.
-/

namespace Deadwood

/-! ## The order of findings -/

theorem FindingKind.text_injective : Function.Injective FindingKind.text := by
  intro a b h
  cases a <;> cases b <;> first | rfl | exact absurd h (by decide)

/-- Comparing by a part is an order if comparing the parts is one. -/
theorem transCmp_on {α β : Type} {cmp : β → β → Ordering} [Std.TransCmp cmp] (part : α → β) :
    Std.TransCmp fun a b => cmp (part a) (part b) where
  eq_swap := Std.OrientedCmp.eq_swap
  isLE_trans := Std.TransCmp.isLE_trans

namespace Finding

instance : Std.TransCmp cmp :=
  have : Std.TransCmp fun a b : Finding => a.location.cmp b.location := transCmp_on location
  have : Std.TransCmp fun a b : Finding => a.symbol.cmp b.symbol := transCmp_on symbol
  have : Std.TransCmp fun a b : Finding => compare a.kind.text b.kind.text :=
    transCmp_on fun f : Finding => f.kind.text
  inferInstanceAs (Std.TransCmp (compareLex (fun a b : Finding => a.location.cmp b.location)
    (compareLex (fun a b => a.symbol.cmp b.symbol) fun a b => compare a.kind.text b.kind.text)))

theorem le_trans (a b c : Finding) (h₁ : le a b = true) (h₂ : le b c = true) : le a c = true :=
  Std.TransCmp.isLE_trans h₁ h₂

theorem le_total (a b : Finding) : (le a b || le b a) = true := isLE_total a b

/-- What findings are told apart by. -/
def key (f : Finding) : Symbol × FindingKind := (f.symbol, f.kind)

theorem key_eq_of_cmp {a b : Finding} (h : cmp a b = .eq) : a.key = b.key := by
  simp only [cmp, Ordering.then_eq_eq] at h
  obtain ⟨-, hsymbol, hkind⟩ := h
  have hsymbol : a.symbol = b.symbol := Std.LawfulEqCmp.eq_of_compare hsymbol
  have hkind : a.kind = b.kind := FindingKind.text_injective (Std.LawfulEqCmp.eq_of_compare hkind)
  exact Prod.ext hsymbol hkind

end Finding

namespace Analysis

open CallGraph

namespace Context

variable {ctx : Context} {checks checks' : List String} {f f' : Finding}

/-! ## Findings are determined by their keys -/

/-- Two findings about one symbol for one reason are equal. -/
theorem eq_of_mem_findings (hf : f ∈ findings ctx checks) (hf' : f' ∈ findings ctx checks')
    (h : f.key = f'.key) :
    f = f' := by
  obtain ⟨check, -, hrun⟩ := mem_findings_iff.1 hf
  obtain ⟨check', -, hrun'⟩ := mem_findings_iff.1 hf'
  obtain ⟨hsymbol, hkind⟩ : f.symbol = f'.symbol ∧ f.kind = f'.kind := Prod.mk.inj h
  have hcheck : check = check' := by
    rw [kind_of_mem_run f hrun, kind_of_mem_run f' hrun'] at hkind
    exact kindOf_injective hkind
  rw [eq_finding_of_mem_run hrun, eq_finding_of_mem_run hrun', hsymbol, hcheck]

/-- **The findings are in order.** -/
theorem findings_pairwise_le (ctx : Context) (checks : List String) :
    (findings ctx checks).Pairwise fun a b => a.le b = true :=
  List.pairwise_mergeSort Finding.le_trans Finding.le_total _

/-- **The order of the checks does not matter.** -/
theorem findings_eq_of_perm (h : checks.Perm checks') :
    findings ctx checks = findings ctx checks' := by
  have hperm : (findings ctx checks).Perm (findings ctx checks') := by
    refine (List.mergeSort_perm _ _).trans (.trans ?_ (List.mergeSort_perm _ _).symm)
    exact (h.filterMap _).flatMap_right _
  refine hperm.eq_of_pairwise (fun a b ha hb hab hba => ?_) (findings_pairwise_le ctx checks)
    (findings_pairwise_le ctx checks')
  exact eq_of_mem_findings ha hb (Finding.key_eq_of_cmp (Std.OrientedCmp.isLE_antisymm hab hba))

/-! ## Nothing is reported twice -/

/-- No check reports a symbol twice. -/
theorem symbols_run_nodup (hg : ctx.graph.definitions.Nodup) (check : Check) :
    ((ctx.run check).map (·.symbol)).Nodup := by
  cases check with
  | narrowable =>
    have hsymbols : (ctx.run .narrowable).map (·.symbol) =
        ctx.graph.definitions.filter ctx.isNarrowable := by
      simp [run, narrowable, finding, Function.comp_def]
    rw [hsymbols]
    exact hg.filter _
  | unused =>
    have hsymbols : (ctx.run .unused).map (·.symbol) =
        ctx.graph.definitions.filter fun s => !ctx.live.contains s && reportable s := by
      simp [run, unused, finding, Function.comp_def]
    rw [hsymbols]
    exact hg.filter _
  | recursiveOnly =>
    have hsymbols : (ctx.run .recursiveOnly).map (·.symbol) =
        (ctx.graph.components.filter ctx.isSelfContained).flatMap (·.filter reportable) := by
      simp [run, recursiveOnly, finding, List.map_flatMap, Function.comp_def]
    rw [hsymbols, List.nodup_flatMap]
    refine ⟨fun members hm => (component_nodup (List.mem_filter.1 hm).1).filter _, ?_⟩
    refine ((components_disjoint ctx.graph).filter _).imp fun {members members'} hdisjoint => ?_
    intro s hs hs'
    exact hdisjoint (List.mem_filter.1 hs).1 (List.mem_filter.1 hs').1

/-- **Different checks report no symbol twice for the same reason.** -/
theorem keys_findings_nodup (hg : ctx.graph.definitions.Nodup)
    (h : (checks.filterMap Check.ofName?).Nodup) :
    ((findings ctx checks).map Finding.key).Nodup := by
  have hperm : ((findings ctx checks).map Finding.key).Perm
      ((checks.filterMap Check.ofName?).flatMap fun check => (ctx.run check).map Finding.key) := by
    rw [← List.map_flatMap]
    exact (List.mergeSort_perm _ _).map _
  rw [hperm.nodup_iff, List.nodup_flatMap]
  constructor
  · intro check _
    have hsymbols : (((ctx.run check).map Finding.key).map Prod.fst).Nodup := by
      rw [List.map_map]
      exact symbols_run_nodup hg check
    exact hsymbols.of_map
  · refine h.imp fun {check check'} hne k hk hk' => hne ?_
    -- a common key has the reasons of both checks
    obtain ⟨f, hf, rfl⟩ := List.mem_map.1 hk
    obtain ⟨f', hf', hkey⟩ := List.mem_map.1 hk'
    have hkind : f'.kind = f.kind := (Prod.mk.inj hkey).2
    rw [kind_of_mem_run f hf, kind_of_mem_run f' hf'] at hkind
    exact (kindOf_injective hkind).symm

/-- In order and without repetition, the findings are strictly ascending. -/
theorem ascending_of_keys_nodup {fs : List Finding} (hle : fs.Pairwise fun a b => a.le b = true)
    (hkeys : (fs.map Finding.key).Nodup) : Ascending Finding.cmp fs := by
  refine hle.imp₂ (fun a b hab hne => ?_) (List.pairwise_map.1 hkeys)
  cases hcmp : Finding.cmp a b with
  | lt => rfl
  | eq => exact absurd (Finding.key_eq_of_cmp hcmp) hne
  | gt =>
    rw [Finding.le, hcmp] at hab
    cases hab

end Context

/-! ## Whole analyses -/

variable {g : ProjectGraph} {o : Options}

theorem exists_rootsAmong_iff {metas : Table Symbol Meta} {guess : Option RootGuess}
    {specs : List Ignore.Spec} {among : List Symbol} :
    (∃ found, rootsAmong g metas guess specs among = .ok found) ↔
      ∀ s ∈ among, ∃ b, isRoot guess specs s (describe g metas s) = .ok b :=
  ⟨fun ⟨_, hfound⟩ _ hs => exists_isRoot_of_rootsAmong hfound hs, exists_rootsAmong g metas guess⟩

theorem exists_analyze_iff : (∃ r, analyze g o = .ok r) ↔
    ∀ s ∈ g.definitions, ∃ b, isRoot o.guess o.rootSpecs s (describe g (o.metas.getD g.nodes) s) =
      .ok b := by
  rw [← exists_rootsAmong_iff]
  constructor
  · rintro ⟨r, hr⟩
    obtain ⟨ctx, hctx, -⟩ := analyze_eq_ok_iff.1 hr
    obtain ⟨found, hfound, -⟩ := context_eq_ok hctx
    exact ⟨found, hfound⟩
  · rintro ⟨found, hfound⟩
    exact ⟨_, analyze_eq_ok_iff.2 ⟨_, by rw [context, roots, hfound]; rfl, rfl⟩⟩

/-- **The list of findings is canonical.** An analysis has a result exactly if it can be told of
every definition whether it is a root. The checks in another order give the same analysis. The
findings of a result are ordered by file, line, symbol and reason, and where no two names ask for
the same check, the order is strict and no symbol is reported twice for the same reason. -/
theorem findings_canonical (g : ProjectGraph) (o : Options) :
    ((∃ r, analyze g o = .ok r) ↔ ∀ s ∈ g.definitions, ∃ b,
      isRoot o.guess o.rootSpecs s (describe g (o.metas.getD g.nodes) s) = .ok b) ∧
    (∀ checks, checks.Perm o.checks → analyze g { o with checks := checks } = analyze g o) ∧
    ∀ r, analyze g o = .ok r →
      (r.findings.Pairwise fun a b => a.le b = true) ∧
      (g.nodes.keys.Nodup → (o.checks.filterMap Check.ofName?).Nodup →
        Ascending Finding.cmp r.findings ∧ (r.findings.map fun f => (f.symbol, f.kind)).Nodup) := by
  refine ⟨exists_analyze_iff, fun checks hperm => ?_, fun r hr => ?_⟩
  · have hcontext : context g { o with checks := checks } = context g o := rfl
    rw [analyze, analyze, hcontext]
    cases context g o with
    | error e => rfl
    | ok ctx =>
      have hfindings : findings ctx checks = findings ctx o.checks :=
        Context.findings_eq_of_perm hperm
      exact congrArg (fun fs => Except.ok (⟨fs, ctx.roots, ctx.live⟩ : Result)) hfindings
  · obtain ⟨ctx, hctx, rfl⟩ := analyze_eq_ok_iff.1 hr
    have hle := Context.findings_pairwise_le ctx o.checks
    refine ⟨hle, fun hnodes hchecks => ?_⟩
    have hkeys : ((findings ctx o.checks).map Finding.key).Nodup :=
      Context.keys_findings_nodup (graph_of_context hctx ▸ hnodes) hchecks
    exact ⟨Context.ascending_of_keys_nodup hle hkeys, hkeys⟩

/-- The unused `ping` is reported once for each reason, in one order for any order of the checks. -/
theorem deadCycle_canonical : ∃ r, analyze deadCycle {} = .ok r ∧
    analyze deadCycle { checks := ["recursive_only", "unused", "private"] } = .ok r ∧
    Ascending Finding.cmp r.findings ∧ (r.findings.map fun f => (f.symbol, f.kind)).Nodup ∧
    ∃ f ∈ r.findings, f.kind = .unused ∧ f.symbol = ⟨"m", "ping", 0⟩ := by
  obtain ⟨hresult, hperm, hfound⟩ := findings_canonical deadCycle {}
  obtain ⟨r, hr⟩ := hresult.2 fun s _ => exists_isRoot none (List.forall_mem_nil _) s _
  have hchecks : (Check.defaults.filterMap Check.ofName?).Nodup := by decide +kernel
  obtain ⟨hascending, hnodup⟩ := (hfound r hr).2 (by decide) hchecks
  refine ⟨r, hr, (hperm _ (by decide)).trans hr, hascending, hnodup, ?_⟩
  obtain ⟨ctx, hctx, rfl⟩ := analyze_eq_ok_iff.1 hr
  have hlive : ctx.live = [⟨"m", "run", 0⟩] := by
    have hreach : deadCycle.reach [⟨"m", "run", 0⟩] = [⟨"m", "run", 0⟩] := by cbv
    cases hctx
    exact hreach
  have hdefined : ctx.graph.isDefined ⟨"m", "ping", 0⟩ = true := by
    cases hctx
    decide
  refine (Context.exists_finding_iff .unused).2
    ⟨by decide +kernel, Context.exists_unused_iff.2 ⟨by decide, hdefined, ?_⟩⟩
  simp [hlive]

end Analysis

end Deadwood
