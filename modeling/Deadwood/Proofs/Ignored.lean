import Deadwood.Proofs.LeftOut
import Deadwood.Proofs.RecursiveOnly

/-!
# Ignoring more never reports more

A specification acts twice: the symbols that it covers count as roots of the analysis, and findings
about them are left out afterwards. On top of that the initializer of a class's fields is left out
where the class is reported as unused, so that fewer findings of one kind could bring back one of
another. Where every initializer has its class (`HasClasses`) this does not happen: what does not
reach the initializer does not reach the class either.

* `mem_run_iff`: which findings a check gives, symbol by symbol.
* `Context.Wider`: another context with the same graph and descriptions in which more is live.
* `remaining`: what is left of an analysis; `remaining_subset`: with more specifications, a subset.
-/

namespace Deadwood.Ignore

/-- What fewer specifications cover, more of them cover, if they answer at all. -/
theorem matchesAny_mono {specs specs' : List Spec} (hsub : specs ⊆ specs') {s : Symbol}
    {info : Option Meta} {b : Bool} (h' : matchesAny specs' s info = .ok b)
    (h : matchesAny specs s info = .ok true) :
    matchesAny specs' s info = .ok true := by
  cases b with
  | true => exact h'
  | false =>
    have hno : matchesAny specs s info = .ok false :=
      matchesAny_eq_false_iff.2 fun spec hspec => matchesAny_eq_false_iff.1 h' spec (hsub hspec)
    rw [h] at hno
    cases hno

end Deadwood.Ignore

namespace Deadwood.Analysis

open CallGraph Ignore

/-! ## What the checks report -/

namespace Context

variable {ctx ctx' : Context} {s : Symbol} {f : Finding} {check : Check}

/-- What a check says about a symbol. -/
def verdict : Check → Symbol → String
  | .narrowable, s => " should be private (is not used outside " ++ s.scope ++ ")"
  | .unused, _ => " is unused"
  | .recursiveOnly, _ => " is only recursively called"

/-- When a check reports a symbol. -/
def Reports (ctx : Context) (s : Symbol) : Check → Prop
  | .narrowable => ctx.graph.isDefined s = true ∧ ctx.isNarrowable s = true
  | .unused => reportable s = true ∧ ctx.graph.isDefined s = true ∧ s ∉ ctx.live
  | .recursiveOnly => reportable s = true ∧ ctx.graph.OnCycle s ∧ s ∉ ctx.live

theorem exists_run_iff (hc : ctx.Grounded) :
    (∃ f ∈ ctx.run check, f.symbol = s) ↔ ctx.Reports s check := by
  cases check with
  | narrowable =>
    simp only [run, narrowable, Reports, List.mem_map, List.mem_filter, ← isDefined_iff]
    constructor
    · rintro ⟨f, ⟨t, ht, rfl⟩, rfl⟩
      exact ht
    · intro hs
      exact ⟨_, ⟨s, hs, rfl⟩, rfl⟩
  | unused => exact exists_unused_iff
  | recursiveOnly => exact exists_recursiveOnly_iff hc

theorem eq_finding_of_mem_run (h : f ∈ ctx.run check) :
    f = ctx.finding f.symbol (kindOf check) (verdict check f.symbol) := by
  cases check with
  | narrowable | unused =>
    obtain ⟨s, -, rfl⟩ := List.mem_map.1 h
    rfl
  | recursiveOnly =>
    obtain ⟨members, -, h⟩ := List.mem_flatMap.1 h
    obtain ⟨s, -, rfl⟩ := List.mem_map.1 h
    rfl

/-- **The findings of a check**: one about each symbol that it reports, the rest of which is
fixed. -/
theorem mem_run_iff (hc : ctx.Grounded) : f ∈ ctx.run check ↔
    ctx.Reports f.symbol check ∧ f =
      ctx.finding f.symbol (kindOf check) (verdict check f.symbol) := by
  constructor
  · intro h
    exact ⟨(exists_run_iff hc).1 ⟨f, h, rfl⟩, eq_finding_of_mem_run h⟩
  · rintro ⟨hr, hf⟩
    obtain ⟨f', hmem, hs⟩ := (exists_run_iff hc).2 hr
    have hf' := eq_finding_of_mem_run hmem
    rw [hs, ← hf] at hf'
    exact hf' ▸ hmem

theorem mem_findings_iff {checks : List String} :
    f ∈ findings ctx checks ↔ ∃ check ∈ checks.filterMap Check.ofName?, f ∈ ctx.run check := by
  rw [findings, List.mem_mergeSort, List.mem_flatMap]

/-! ## More roots -/

/-- The second context is the first one with more that is live. -/
structure Wider (ctx ctx' : Context) : Prop where
  rest : ctx' = { ctx with roots := ctx'.roots, live := ctx'.live }
  live : ctx.live ⊆ ctx'.live

namespace Wider

theorem graph (h : Wider ctx ctx') : ctx'.graph = ctx.graph := by
  rw [h.rest]

theorem finding (h : Wider ctx ctx') (s : Symbol) (kind : FindingKind) (rest : String) :
    ctx'.finding s kind rest = ctx.finding s kind rest := by
  rw [h.rest]
  rfl

theorem isNarrowable (h : Wider ctx ctx') (s : Symbol) :
    ctx'.isNarrowable s = ctx.isNarrowable s := by
  rw [h.rest]
  rfl

/-- What is reported where more is live is reported where less is. -/
theorem reports (h : Wider ctx ctx') (hr : ctx'.Reports s check) : ctx.Reports s check := by
  cases check with
  | narrowable =>
    obtain ⟨hd, hn⟩ := hr
    rw [h.graph] at hd
    rw [h.isNarrowable] at hn
    exact ⟨hd, hn⟩
  | unused =>
    obtain ⟨hrep, hd, hl⟩ := hr
    rw [h.graph] at hd
    exact ⟨hrep, hd, fun hs => hl (h.live hs)⟩
  | recursiveOnly =>
    obtain ⟨hrep, hcyc, hl⟩ := hr
    rw [h.graph] at hcyc
    exact ⟨hrep, hcyc, fun hs => hl (h.live hs)⟩

theorem findings_subset (h : Wider ctx ctx') (hc : ctx.Grounded) (hc' : ctx'.Grounded)
    (checks : List String) :
    findings ctx' checks ⊆ findings ctx checks := by
  intro f hf
  obtain ⟨check, hcheck, hrun⟩ := mem_findings_iff.1 hf
  obtain ⟨hr, heq⟩ := (mem_run_iff hc').1 hrun
  rw [h.finding] at heq
  exact mem_findings_iff.2 ⟨check, hcheck, (mem_run_iff hc).2 ⟨h.reports hr, heq⟩⟩

end Wider

end Context

variable {g : ProjectGraph} {o : Options} {ctx ctx' : Context}

theorem context_eq_ok (h : context g o = .ok ctx) :
    ∃ found, roots g (o.metas.getD g.nodes) o.guess o.rootSpecs = .ok found ∧
      ctx = ⟨g, o.metas.getD g.nodes, found, g.reach found, o.guess, o.severity,
        o.exemptLikelyRoots⟩ := by
  simp only [context] at h
  cases hroots : roots g (o.metas.getD g.nodes) o.guess o.rootSpecs with
  | error e =>
    rw [hroots] at h
    cases h
  | ok found =>
    rw [hroots] at h
    cases h
    exact ⟨found, rfl, rfl⟩

theorem graph_of_context (h : context g o = .ok ctx) : ctx.graph = g := by
  obtain ⟨found, -, rfl⟩ := context_eq_ok h
  rfl

/-- An analysis has a result if its roots can be found; the checks cannot fail. -/
theorem analyze_eq_ok_iff {r : Result} : analyze g o = .ok r ↔
    ∃ ctx, context g o = .ok ctx ∧ r = ⟨findings ctx o.checks, ctx.roots, ctx.live⟩ := by
  rw [analyze]
  cases context g o with
  | error e => simp [bind, Except.bind]
  | ok ctx => simp [bind, Except.bind, pure, Except.pure, eq_comm]

theorem grounded_of_context (h : context g o = .ok ctx) : ctx.Grounded := by
  obtain ⟨found, hfound, rfl⟩ := context_eq_ok h
  exact ⟨fun s hs => isDefined_iff.2 ((mem_rootsAmong_iff hfound).1 hs).1, rfl⟩

theorem exists_isRoot_of_rootsAmong {metas : Table Symbol Meta} {guess : Option RootGuess}
    {specs : List Spec} {among found : List Symbol}
    (h : rootsAmong g metas guess specs among = .ok found) {s : Symbol} (hs : s ∈ among) :
    ∃ b, isRoot guess specs s (describe g metas s) = .ok b := by
  induction among generalizing found with
  | nil => cases hs
  | cons a rest ih =>
    rw [rootsAmong] at h
    cases hroot : isRoot guess specs a (describe g metas a) with
    | error e =>
      rw [hroot] at h
      cases h
    | ok b =>
      rw [hroot] at h
      cases hothers : rootsAmong g metas guess specs rest with
      | error e =>
        rw [hothers] at h
        cases h
      | ok others =>
        rcases List.mem_cons.1 hs with rfl | hs
        · exact ⟨b, hroot⟩
        · exact ih hothers hs

/-- A root stays one with more specifications, if these answer at all. -/
theorem isRoot_mono {guess : Option RootGuess} {A B : List Spec} (hsub : A ⊆ B) {s : Symbol}
    {info : Meta} {b : Bool} (hB : isRoot guess B s info = .ok b)
    (hA : isRoot guess A s info = .ok true) :
    isRoot guess B s info = .ok true := by
  unfold isRoot at hA hB ⊢
  by_cases hpublic : (!info.isPublic) = true
  · rw [if_pos hpublic] at hA
    cases hA
  by_cases hexport : info.export = true
  · rw [if_neg hpublic, if_pos hexport]
  by_cases hguess : (guess.any fun o => o s info) = true
  · rw [if_neg hpublic, if_neg hexport, if_pos hguess]
  · rw [if_neg hpublic, if_neg hexport, if_neg hguess] at hA hB ⊢
    exact matchesAny_mono hsub hB hA

theorem wider_of_context {A B : List Spec} (hsub : A ⊆ B)
    (h : context g { o with rootSpecs := A } = .ok ctx)
    (h' : context g { o with rootSpecs := B } = .ok ctx') : ctx.Wider ctx' := by
  obtain ⟨found, hfound, rfl⟩ := context_eq_ok h
  obtain ⟨found', hfound', rfl⟩ := context_eq_ok h'
  refine ⟨rfl, fun s hs => ?_⟩
  obtain ⟨r, hr, hreach⟩ := mem_reach_iff.1 hs
  obtain ⟨hdef, hroot⟩ := (mem_rootsAmong_iff hfound).1 hr
  obtain ⟨b, hb⟩ := exists_isRoot_of_rootsAmong hfound' hdef
  exact mem_reach_iff.2
    ⟨r, (mem_rootsAmong_iff hfound').2 ⟨hdef, isRoot_mono hsub hb hroot⟩, hreach⟩

/-! ## Initializers and their classes -/

/-- The initializer of the fields of `S` came with the class, which calls it. -/
structure BelongsToClass (g : ProjectGraph) (S : String) : Prop where
  generated : ∀ info, g.nodes.find? (.fieldsOf S) = some info → info.generated = true
  class_defined : g.isDefined (.classOf S) = true
  called : .fieldsOf S ∈ g.callees (.classOf S)

/-- Every initializer that is defined has its class. -/
def HasClasses (g : ProjectGraph) : Prop :=
  ∀ S, g.isDefined (.fieldsOf S) = true → BelongsToClass g S

theorem reportable_classOf (S : String) : Context.reportable (.classOf S) = true := by
  have hname : Symbol.recordName ≠ Symbol.bodyName := by decide
  exact decide_eq_true hname

/-- What came with a class is no candidate for being private. -/
theorem isNarrowable_fieldsOf (hmetas : ctx.metas = ctx.graph.nodes) {S : String}
    (hd : ctx.graph.isDefined (.fieldsOf S) = true) (h : BelongsToClass ctx.graph S) :
    ctx.isNarrowable (.fieldsOf S) = false := by
  obtain ⟨info, hinfo⟩ := Table.mem_keys_iff_find?.1 (isDefined_iff.1 hd)
  have hdescribe : ctx.describe (.fieldsOf S) = info := by
    rw [Context.describe, describe, hmetas, hinfo]
    rfl
  simp only [Context.isNarrowable, hdescribe, h.generated info hinfo, Bool.not_true, Bool.and_false,
    Bool.false_and]

/-- **An initializer is reported only where its class is unused**: no path that reaches the class
misses the initializer. -/
theorem Context.Reports.classOf (hc : ctx.Grounded) (hmetas : ctx.metas = ctx.graph.nodes)
    (hg : HasClasses ctx.graph) {S : String} {check : Check} (h : ctx.Reports (.fieldsOf S) check) :
    check ≠ .narrowable ∧ ctx.Reports (.classOf S) .unused := by
  have hunused (hd : ctx.graph.isDefined (.fieldsOf S) = true) (hl : .fieldsOf S ∉ ctx.live) :
      ctx.Reports (.classOf S) .unused := by
    have hS := hg S hd
    refine ⟨reportable_classOf S, hS.class_defined, fun hclass => hl ?_⟩
    obtain ⟨r, hr, hreach⟩ := (mem_live_iff hc).1 hclass
    exact (mem_live_iff hc).2 ⟨r, hr, hreach.step hS.called hd⟩
  cases check with
  | narrowable =>
    obtain ⟨hd, hn⟩ := h
    rw [isNarrowable_fieldsOf hmetas hd (hg S hd)] at hn
    cases hn
  | unused => exact ⟨nofun, hunused h.2.1 h.2.2⟩
  | recursiveOnly => exact ⟨nofun, hunused h.2.1.isDefined h.2.2⟩

/-- The class of an initializer that is reported is among the unused ones, if these are looked
for. -/
theorem mem_unusedClasses_of_reports (hc : ctx.Grounded) (hmetas : ctx.metas = ctx.graph.nodes)
    (hg : HasClasses ctx.graph) {S : String} {check : Check} (h : ctx.Reports (.fieldsOf S) check)
    {checks : List String} (hchecks : .unused ∈ checks.filterMap Check.ofName?) :
    S ∈ unusedClasses (findings ctx checks) := by
  obtain ⟨-, hclass⟩ := h.classOf hc hmetas hg
  obtain ⟨f, hf, hkind, hs⟩ := (Context.exists_finding_iff .unused).2
    ⟨hchecks, (Context.exists_run_iff hc).2 hclass⟩
  exact mem_unusedClasses_iff.2 ⟨f, hf, hkind, hs⟩

/-! ## What is left of an analysis -/

/-- The findings of an analysis that the specifications leave. -/
def remaining (g : ProjectGraph) (o : Options) (specs : List Spec) :
    Except PredicateFailure (List Finding) := do
  let r ← analyze g o
  reject r.findings specs g.nodes

theorem remaining_eq_ok {specs : List Spec} {kept : List Finding}
    (h : remaining g o specs = .ok kept) :
    ∃ ctx, context g o = .ok ctx ∧ reject (findings ctx o.checks) specs g.nodes = .ok kept := by
  simp only [remaining, analyze] at h
  cases hctx : context g o with
  | error e =>
    rw [hctx] at h
    cases h
  | ok ctx =>
    rw [hctx] at h
    exact ⟨ctx, rfl, h⟩

theorem exists_remaining {specs : List Spec} (hroots : ∀ spec ∈ o.rootSpecs, spec.Total)
    (hspecs : ∀ spec ∈ specs, spec.Total) : ∃ kept, remaining g o specs = .ok kept := by
  obtain ⟨ctx, hctx, -, -⟩ := exists_context g hroots
  obtain ⟨kept, hkept⟩ : ∃ kept, reject (findings ctx o.checks) specs g.nodes = .ok kept :=
    exists_keepUnmatched hspecs _ _
  refine ⟨kept, ?_⟩
  simp only [remaining, analyze, hctx]
  exact hkept

/-- What more specifications leave, fewer leave too. -/
theorem remaining_subset (hg : HasClasses g) (hmetas : o.metas.getD g.nodes = g.nodes)
    {A B : List Spec} (hsub : A ⊆ B) {kept kept' : List Finding}
    (h : remaining g { o with rootSpecs := A } A = .ok kept)
    (h' : remaining g { o with rootSpecs := B } B = .ok kept') : kept' ⊆ kept := by
  obtain ⟨ctx, hctx, hkept⟩ := remaining_eq_ok h
  obtain ⟨ctx', hctx', hkept'⟩ := remaining_eq_ok h'
  have hwider := wider_of_context hsub hctx hctx'
  have hc := grounded_of_context hctx
  have hc' := grounded_of_context hctx'
  intro f hf
  obtain ⟨hfound, hfields, hmatch⟩ := (mem_reject_iff hkept').1 hf
  refine (mem_reject_iff hkept).2 ⟨hwider.findings_subset hc hc' _ hfound, ?_, ?_⟩
  · -- a class that is unused with the fewer roots is still unused if its initializer is reported
    by_contra hcontra
    obtain ⟨S, hS, hs⟩ := isFieldsOf_iff.1 (by simpa using hcontra)
    obtain ⟨check, -, hrun⟩ := Context.mem_findings_iff.1 hfound
    have hreports := ((Context.mem_run_iff hc').1 hrun).1
    obtain ⟨found', -, rfl⟩ := context_eq_ok hctx'
    obtain ⟨e, he, hkind, -⟩ := mem_unusedClasses_iff.1 hS
    have hunused := ((Context.exists_finding_iff .unused).1 ⟨e, he, hkind, rfl⟩).1
    have hlost := mem_unusedClasses_of_reports hc' hmetas hg (hs ▸ hreports) hunused
    rw [isFieldsOf_iff.2 ⟨S, hlost, hs⟩] at hfields
    cases hfields
  · exact matchesAny_eq_false_iff.2 fun spec hspec =>
      matchesAny_eq_false_iff.1 hmatch spec (hsub hspec)

/-- **Ignoring more never reports more.** Where every initializer has its class, the findings that
are left with more specifications, as roots and as a filter, are among those that are left with
fewer of them; and something is left, if only the empty list, where no specification fails. -/
theorem remaining_antitone (g : ProjectGraph) (hg : HasClasses g) (o : Options)
    (hmetas : o.metas.getD g.nodes = g.nodes) (A B : List Spec) (hsub : A ⊆ B) :
    ((∀ spec ∈ B, spec.Total) → ∃ kept kept', remaining g { o with rootSpecs := A } A = .ok kept ∧
      remaining g { o with rootSpecs := B } B = .ok kept' ∧ kept' ⊆ kept) ∧
    ∀ kept kept', remaining g { o with rootSpecs := A } A = .ok kept →
      remaining g { o with rootSpecs := B } B = .ok kept' → kept' ⊆ kept := by
  refine ⟨fun htotal => ?_, fun kept kept' h h' => remaining_subset hg hmetas hsub h h'⟩
  have htotal' : ∀ spec ∈ A, spec.Total := fun spec hspec => htotal spec (hsub hspec)
  obtain ⟨kept, h⟩ := exists_remaining (g := g) (o := { o with rootSpecs := A }) htotal' htotal'
  obtain ⟨kept', h'⟩ := exists_remaining (g := g) (o := { o with rootSpecs := B }) htotal htotal
  exact ⟨kept, kept', h, h', remaining_subset hg hmetas hsub h h'⟩

/-- A function that makes an object of the class `m.C`, and another that nothing uses. -/
def withClass : ProjectGraph where
  nodes :=
    ⟨[(⟨"m", "lost", 0⟩, {}), (⟨"m", "make", 0⟩, {}), (.classOf "m.C", { generated := true }),
    (.fieldsOf "m.C", { generated := true })]⟩
  sites := ⟨[((⟨"m", "make", 0⟩, .classOf "m.C"), []), ((.classOf "m.C", .fieldsOf "m.C"), [])]⟩
  dropped := 0

theorem hasClasses_withClass : HasClasses withClass := by
  intro S hS
  have hmem : Symbol.fieldsOf S ∈ withClass.definitions := isDefined_iff.1 hS
  have hS : S = "m.C" := by
    simpa [withClass, definitions, Table.keys, Symbol.fieldsOf, Symbol.classOf, Symbol.recordName]
      using hmem
  subst hS
  refine ⟨fun info hinfo => ?_, by decide, by decide⟩
  cases hinfo
  rfl

/-- The function `make` of the module `m`. -/
def making : Spec := .symbol (.exact "m") (.exact "make") .any

theorem withClass_remaining : ∃ kept kept', remaining withClass { rootSpecs := [] } [] = .ok kept ∧
    remaining withClass { rootSpecs := [making] } [making] = .ok kept' ∧ kept' ⊆ kept ∧
      (∃ f ∈ kept', f.symbol = ⟨"m", "lost", 0⟩) ∧ ∀ f ∈ kept', f.symbol ≠ ⟨"m", "make", 0⟩ := by
  have htotal : ∀ spec ∈ [making], spec.Total := by
    intro spec hspec
    obtain rfl := List.mem_singleton.1 hspec
    exact fun s info => ⟨_, rfl⟩
  obtain ⟨kept, kept', h, h', hsub⟩ :=
    (remaining_antitone withClass hasClasses_withClass {} rfl [] [making] (by simp)).1 htotal
  obtain ⟨ctx, hctx, hkept⟩ := remaining_eq_ok h'
  have hlive : ⟨"m", "lost", 0⟩ ∉ ctx.live := by
    have hreach : ⟨"m", "lost", 0⟩ ∉ withClass.reach [⟨"m", "make", 0⟩] := by
      intro hmem
      obtain ⟨r, hr, hreach⟩ := mem_reach_iff.1 hmem
      obtain rfl := List.mem_singleton.1 hr
      obtain ⟨c, -, hc⟩ := hreach.exists_last (by decide)
      have hedges : ∀ e ∈ withClass.edges, e.2 ≠ ⟨"m", "lost", 0⟩ := by decide
      exact hedges _ (mem_callees_iff.1 hc) rfl
    cases hctx
    exact hreach
  have hgraph : ctx.graph = withClass := by
    cases hctx
    rfl
  have hchecks : .unused ∈ Check.defaults.filterMap Check.ofName? := by decide +kernel
  have hlost : ctx.Reports ⟨"m", "lost", 0⟩ .unused := by
    exact ⟨by decide, by rw [hgraph]; decide, hlive⟩
  obtain ⟨f, hf, -, hs⟩ := (Context.exists_finding_iff .unused).2
    ⟨hchecks, (Context.exists_run_iff (grounded_of_context hctx)).2 hlost⟩
  refine ⟨kept, kept', h, h', hsub, ⟨f, (mem_reject_iff hkept).2 ⟨hf, ?_, ?_⟩, hs⟩,
    fun f hf hs => ?_⟩
  · rw [hs]
    rfl
  · rw [hs]
    rfl
  · have hmatch := ((mem_reject_iff hkept).1 hf).2.2
    rw [hs] at hmatch
    cases hmatch

end Deadwood.Analysis
