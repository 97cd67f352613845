import Deadwood.Command
import Deadwood.Proofs.Constructors
import Deadwood.Proofs.Run

/-!
# The initializers of fields are never reported

A finding about the initializer of a class's fields is not printed. That leaves a gap only if such a
finding can be left when all others are filtered: then a run would end with the code for findings
and show none. `isPrintable_of_remaining` closes the gap for the graphs that the sources of a
project give. An initializer has its class and calls nothing, so it is reported only as unused, and
then its class is unused as well and stands for both.

* `Machine.Tells x`: the action only adds to what was printed.
* `run_analyse`, `analyse_eq_one`: what a run prints and the code it ends with.
* `initializers_unreported`: both together, and that the graphs of projects are such graphs.
-/

namespace Deadwood

namespace CallGraph

/-- From a definition that calls nothing only itself is reached. -/
theorem Reaches.eq_of_callees {M L : Type} {g : CallGraph M L} {a b : Symbol} (h : g.Reaches a b)
    (ha : g.callees a = []) : b = a := by
  induction h with
  | refl => rfl
  | step _ e _ ih =>
    rw [ih, ha] at e
    cases e

theorem not_onCycle_of_callees {M L : Type} {g : CallGraph M L} {s : Symbol}
    (h : g.callees s = []) :
    ¬ g.OnCycle s := by
  rintro ⟨t, ht, e⟩
  rw [ht.eq_of_callees h, h] at e
  cases e

end CallGraph

namespace Analysis

open CallGraph Ignore

variable {g : ProjectGraph} {o : Options} {ctx : Context}

/-- No initializer that is defined calls anything. -/
def InitializersInert (g : ProjectGraph) : Prop :=
  ∀ S, g.isDefined (.fieldsOf S) = true → g.callees (.fieldsOf S) = []

/-- An initializer that calls nothing is reported as unused or not at all. -/
theorem Context.Reports.eq_unused (hc : ctx.Grounded) (hmetas : ctx.metas = ctx.graph.nodes)
    (hg : HasClasses ctx.graph) (hinert : InitializersInert ctx.graph) {S : String} {check : Check}
    (h : ctx.Reports (.fieldsOf S) check) : check = .unused := by
  cases check with
  | narrowable => exact absurd rfl (h.classOf hc hmetas hg).1
  | unused => rfl
  | recursiveOnly => exact absurd h.2.1 (not_onCycle_of_callees (hinert S h.2.1.isDefined))

theorem isPrintable_iff {f : Finding} : f.isPrintable = true ↔ ∀ S, f.symbol ≠ .fieldsOf S := by
  obtain ⟨⟨scope, name, arity⟩, kind, location, message, severity⟩ := f
  simp only [Finding.isPrintable, Bool.not_eq_true', Bool.and_eq_false_imp, decide_eq_true_eq,
    decide_eq_false_iff_not, Symbol.fieldsOf, ne_eq, Symbol.mk.injEq, not_and]
  constructor
  · exact fun h S _ hname => h hname
  · exact fun h hname => h scope rfl hname

/-- **What is left can be printed**: none of it is about the initializer of fields. -/
theorem isPrintable_of_remaining (hg : HasClasses g) (hinert : InitializersInert g)
    (hmetas : o.metas.getD g.nodes = g.nodes) {specs : List Spec} {kept : List Finding}
    (h : remaining g o specs = .ok kept) : ∀ f ∈ kept, f.isPrintable = true := by
  intro f hf
  refine isPrintable_iff.2 fun S hS => ?_
  obtain ⟨ctx, hctx, hkept⟩ := remaining_eq_ok h
  have hc := grounded_of_context hctx
  obtain ⟨found, -, rfl⟩ := context_eq_ok hctx
  obtain ⟨hfound, hfields, -⟩ := (mem_reject_iff hkept).1 hf
  obtain ⟨check, hcheck, hrun⟩ := Context.mem_findings_iff.1 hfound
  have hreports := ((Context.mem_run_iff hc).1 hrun).1
  rw [hS] at hreports
  obtain rfl := hreports.eq_unused hc hmetas hg hinert
  have hlost := mem_unusedClasses_of_reports hc hmetas hg hreports hcheck
  rw [isFieldsOf_iff.2 ⟨S, hlost, hS⟩] at hfields
  cases hfields

end Analysis

/-! ## What is printed -/

namespace Machine

variable {α β : Type}

/-- The action only adds to what was printed. -/
def Tells (x : StateM Machine α) : Prop :=
  ∀ m : Machine, ∃ text, (x.run m).2.printed = m.printed ++ text

theorem Query.tells {x : StateM Machine α} (h : Query x) : Tells x := by
  obtain ⟨f, hf⟩ := h
  intro m
  exact ⟨"", by rw [hf, String.append_empty]⟩

theorem Tells.pure (a : α) : Tells (pure a : StateM Machine α) := (Query.pure a).tells

theorem Tells.bind {x : StateM Machine α} {f : α → StateM Machine β} (hx : Tells x)
    (hf : ∀ a, Tells (f a)) :
    Tells (x >>= f) := by
  intro m
  obtain ⟨first, hfirst⟩ := hx m
  obtain ⟨second, hsecond⟩ := hf (x.run m).1 (x.run m).2
  refine ⟨first ++ second, ?_⟩
  rw [run_andThen, hsecond, hfirst, String.append_assoc]

theorem tells_say (line : String) : Tells (host.say line) := fun _ => ⟨line ++ "\n", rfl⟩

theorem tells_openPage (address : String) : Tells (host.openPage address) :=
  fun m => ⟨"", (String.append_empty (s := m.printed)).symm⟩

end Machine

namespace Command

open Machine Project
open Analysis (HasClasses InitializersInert remaining withClass)

variable {lib : Library} {o : RunOptions} {m m' m₁ : Machine} {config : Config} {outcome : Outcome}

theorem tells_tellReports (htmlOpen : Bool) (w : Written) :
    Tells (tellReports host htmlOpen w) := by
  obtain ⟨json, html, drawing, picture⟩ := w
  have hdirectory : Tells host.directory :=
    fun m => ⟨"", (String.append_empty (s := m.printed)).symm⟩
  have hdrawing : Tells (tellReports host htmlOpen ⟨none, none, drawing, picture⟩) := by
    cases drawing with
    | none => exact .pure ()
    | some p => cases picture <;> exact tells_say _
  have hhtml : Tells (tellReports host htmlOpen ⟨none, html, drawing, picture⟩) := by
    cases html with
    | none => exact hdrawing
    | some p =>
      refine (tells_say _).bind fun _ => ?_
      cases htmlOpen with
      | false => exact hdrawing
      | true => exact hdirectory.bind fun _ => (tells_openPage _).bind fun _ => hdrawing
  cases json with
  | none => exact hhtml
  | some p => exact (tells_say _).bind fun _ => hhtml

/-- A run with findings prints the lines that tell them, and its code says whether they block. -/
theorem run_analyse (hran : (configuredRun host lib o).run.run m = (.ok (config, outcome), m₁)) :
    ∃ m' after, m'.printed = m₁.printed ++
        String.join ((findingLines m₁.disk.directory outcome).map (· ++ "\n")) ++ after ∧
      (analyse host lib o).run.run m = (.ok (if outcome.result.findings.isEmpty then 0
        else if isBlocking config then 1 else 0), m') := by
  have hdirectory : host.directory.run m₁ = (m₁.disk.directory, m₁) := rfl
  unfold analyse
  rw [ExceptT.run_mk, run_andThen, hran]
  dsimp only
  rw [run_andThen, hdirectory, run_andThen, run_sayAll, run_andThen]
  obtain ⟨after, hafter⟩ := tells_tellReports o.htmlOpen outcome.written
    { m₁ with printed := m₁.printed ++
      String.join ((findingLines m₁.disk.directory outcome).map (· ++ "\n")) }
  split_ifs
  · obtain ⟨last, hlast⟩ := tells_say "✅ 未发现问题" ((tellReports host o.htmlOpen outcome.written).run
      { m₁ with printed := m₁.printed ++
        String.join ((findingLines m₁.disk.directory outcome).map (· ++ "\n")) }).2
    refine ⟨_, after ++ last, ?_, rfl⟩
    rw [← String.append_assoc, ← hafter]
    exact hlast
  · exact ⟨_, after, hafter, rfl⟩
  · exact ⟨_, after, hafter, rfl⟩

/-- A run that ends with the code for findings has some, and has printed the lines that tell
them. -/
theorem analyse_eq_one (h : (analyse host lib o).run.run m = (.ok 1, m')) :
    ∃ config outcome m₁, (configuredRun host lib o).run.run m = (.ok (config, outcome), m₁) ∧
      outcome.result.findings ≠ [] ∧ ∃ after, m'.printed = m₁.printed ++
        String.join ((findingLines m₁.disk.directory outcome).map (· ++ "\n")) ++ after := by
  cases hran : (configuredRun host lib o).run.run m with
  | mk ended m₁ =>
    cases ended with
    | error e =>
      unfold analyse at h
      rw [ExceptT.run_mk, run_andThen, hran] at h
      dsimp only at h
      cases hcomplaint : e.complaint? with
      | none =>
        rw [hcomplaint] at h
        cases h
      | some text =>
        rw [hcomplaint] at h
        cases h
    | ok found =>
      obtain ⟨config, outcome⟩ := found
      obtain ⟨_, after, hafter, heq⟩ := run_analyse hran
      rw [heq] at h
      refine ⟨config, outcome, m₁, rfl, fun hnil => ?_, after, ?_⟩
      · rw [hnil] at h
        cases h
      · cases congrArg Prod.snd h
        exact hafter

theorem result_of_run {r : Request} (h : (Project.run host lib r).run.run m = (.ok outcome, m')) :
    ∃ specs c, result r.config specs c = .ok outcome.result := by
  obtain ⟨m₁, -, -, -, heq⟩ := run_eq lib r m
  rw [h] at heq
  cases hanalysed : analysedOn lib m.disk r with
  | error e =>
    rw [hanalysed] at heq
    cases heq
  | ok a =>
    rw [hanalysed] at heq
    have hresult := result_of_conclude (congrArg Prod.fst heq).symm
    obtain ⟨specs, -, hanalysed⟩ := bind_eq_ok hanalysed
    obtain ⟨previous, -, hanalysed⟩ := bind_eq_ok hanalysed
    obtain ⟨c, -, hanalysed⟩ := bind_eq_ok hanalysed
    obtain ⟨res, hres, hanalysed⟩ := bind_eq_ok hanalysed
    cases hanalysed
    exact ⟨specs, c, hresult ▸ mapError_eq_ok hres⟩

theorem result_of_configuredRun
    (h : (configuredRun host lib o).run.run m = (.ok (config, outcome), m₁)) :
    ∃ specs c, result config specs c = .ok outcome.result := by
  unfold configuredRun at h
  rw [run_bind, run_lift] at h
  dsimp only at h
  rw [run_bind, run_orEnd] at h
  generalize (Config.load host lib ((nonEmpty o.config).map .ofText) false).run.run m = loaded at h
  obtain ⟨loaded, m₂⟩ := loaded
  cases loaded with
  | error e => cases h
  | ok loaded =>
    dsimp only [Except.mapError] at h
    rw [run_bind, run_orEnd] at h
    cases hconfig : loaded.override o.overrides with
    | error e =>
      rw [hconfig] at h
      cases h
    | ok config' =>
      rw [hconfig] at h
      dsimp only [Except.mapError] at h
      rw [run_bind] at h
      cases hran : (Project.run host lib (o.request config')).run.run m₂ with
      | mk ended m₃ =>
        rw [hran] at h
        cases ended with
        | error e => cases h
        | ok outcome' =>
          cases h
          have hres := result_of_run hran
          exact hres

/-- The findings of a result are those that are left of the analysis of its graph. -/
theorem remaining_of_result {config : Config} {specs : List Ignore.Spec} {c : Collection}
    {res : Result} (h : result config specs c = .ok res) :
    res.graph = graphOf c ∧
      remaining res.graph (optionsOf config specs) specs = .ok res.findings := by
  obtain ⟨analysis, hanalysis, h⟩ := bind_eq_ok h
  obtain ⟨findings, hfindings, h⟩ := bind_eq_ok h
  cases h
  refine ⟨rfl, ?_⟩
  rw [remaining, hanalysis]
  exact hfindings

/-- **A run that ends with the code for findings has printed one**, and all its findings can be
printed. -/
theorem exists_diagnostic (h : (analyse host lib o).run.run m = (.ok 1, m'))
    (hran : (configuredRun host lib o).run.run m = (.ok (config, outcome), m₁))
    (hg : HasClasses outcome.result.graph) (hinert : InitializersInert outcome.result.graph) :
    (∀ f ∈ outcome.result.findings, f.isPrintable = true) ∧ ∃ f ∈ outcome.result.findings,
      ∃ before after, m'.printed =
        m₁.printed ++ before ++ (f.diagnostic m₁.disk.directory ++ "\n") ++ after := by
  obtain ⟨specs, c, hres⟩ := result_of_configuredRun hran
  have hprintable := Analysis.isPrintable_of_remaining hg hinert rfl (remaining_of_result hres).2
  refine ⟨hprintable, ?_⟩
  obtain ⟨_, _, _, hran', hne, after, hm'⟩ := analyse_eq_one h
  rw [hran] at hran'
  cases hran'
  obtain ⟨f, hf⟩ := List.exists_mem_of_ne_nil _ hne
  have hline : f.diagnostic m₁.disk.directory ∈ findingLines m₁.disk.directory outcome := by
    simp only [findingLines, List.mem_append]
    exact .inl (.inl (.inr (List.mem_map.2 ⟨f, List.mem_filter.2 ⟨hf, hprintable f hf⟩, rfl⟩)))
  obtain ⟨lines, lines', hlines⟩ := List.append_of_mem hline
  refine ⟨f, hf, String.join (lines.map (· ++ "\n")),
    String.join (lines'.map (· ++ "\n")) ++ after, ?_⟩
  rw [hm', hlines, List.map_append, List.map_cons, String.join_append, String.join_cons]
  simp only [String.append_assoc]

/-- **The initializers of fields are never reported.** Let every initializer of a graph have its
class and call nothing. Whatever is looked for and ignored, what is left of the analysis can be
printed, since none of it is about an initializer; so a run on that graph that ends with the code
for findings has printed one of them. The sources of a project give such graphs, unless a function
has the reserved name. -/
theorem initializers_unreported {g : ProjectGraph} (hg : HasClasses g)
    (hinert : InitializersInert g) :
    (∀ (o : Analysis.Options) (specs : List Ignore.Spec), o.metas.getD g.nodes = g.nodes →
      ((∀ spec ∈ o.rootSpecs, spec.Total) → (∀ spec ∈ specs, spec.Total) →
        ∃ kept, remaining g o specs = .ok kept) ∧
      ∀ kept, remaining g o specs = .ok kept →
        ∀ f ∈ kept, (∀ S, f.symbol ≠ .fieldsOf S) ∧ f.isPrintable = true) ∧
    (∀ (lib : Library) (o : RunOptions) (m m' : Machine),
      (analyse host lib o).run.run m = (.ok 1, m') →
      ∃ config outcome m₁, (configuredRun host lib o).run.run m = (.ok (config, outcome), m₁) ∧
        (outcome.result.graph = g → (∀ f ∈ outcome.result.findings, f.isPrintable = true) ∧
          ∃ f ∈ outcome.result.findings, ∃ before after, m'.printed =
            m₁.printed ++ before ++ (f.diagnostic m₁.disk.directory ++ "\n") ++ after)) ∧
    ∀ c : Collection, UnitsDistinct c → (∀ u ∈ Collection.facts c, OfTree Source.notReserved u) →
      HasClasses (graphOf c) ∧ InitializersInert (graphOf c) := by
  refine ⟨fun o specs hmetas => ⟨Analysis.exists_remaining, fun kept hkept f hf => ?_⟩,
    fun lib o m m' h => ?_,
    fun c hc htree => ⟨hasClasses_graphOf hc htree, fun S _ => callees_fieldsOf hc htree S⟩⟩
  · have hprintable := Analysis.isPrintable_of_remaining hg hinert hmetas hkept f hf
    exact ⟨Analysis.isPrintable_iff.1 hprintable, hprintable⟩
  · obtain ⟨config, outcome, m₁, hran, -⟩ := analyse_eq_one h
    refine ⟨config, outcome, m₁, hran, ?_⟩
    rintro rfl
    exact exists_diagnostic h hran hg hinert

/-- The class `m.C`, without the initializer of its fields. -/
def hidingClass : Ignore.Spec := .symbol (.exact "m.C") .any (.exact 0)

/-- The text `@dataclass` and, on the next line, `class C: pass`. -/
def recordText : List UInt8 :=
  [64, 100, 97, 116, 97, 99, 108, 97, 115, 115, 10,
    99, 108, 97, 115, 115, 32, 67, 58, 32, 112, 97, 115, 115, 10]

/-- The statements of the text. -/
def record : List Source.Stmt := [.classDef 2 "C" [] [] [.name 1 "dataclass" .load] [.simple []]]

/-- A module with a record. -/
def recording : Collection :=
  [.fresh ⟨"m.py", "m", digest recordText, (unitFacts "m" "m.py" false record).facts⟩]

/-- A disk with the text. -/
def recordDisk : Disk := { nodes := ⟨[(["m.py"], .file recordText)]⟩ }

/-- A run over the module that keeps no manifest and writes no reports, and whose findings block. -/
def recordRun : RunOptions :=
  { paths := ["m.py"], severity := some "error", output := some "", noManifest := true }

/-- The configuration of the run. -/
def recordConfig : Config :=
  { Config.initial false with paths := ["m.py"], severity := .error, output := "" }

theorem inert_withClass : InitializersInert withClass := by
  intro S _
  refine List.eq_nil_iff_forall_not_mem.2 fun t ht => ?_
  have hedge := CallGraph.mem_callees_iff.1 ht
  simp [withClass, CallGraph.edges, Table.keys, Symbol.fieldsOf, Symbol.classOf, Symbol.recordName]
    at hedge

/-- What is defined but not live is reported as unused. -/
theorem exists_finding_of_lost {g : ProjectGraph} {o : Analysis.Options} {ctx : Analysis.Context}
    (hctx : Analysis.context g o = .ok ctx)
    (hchecks : .unused ∈ o.checks.filterMap Analysis.Check.ofName?) {s : Symbol}
    (hs : Analysis.Context.reportable s = true) (hdefined : g.isDefined s = true)
    (hlive : s ∉ ctx.live) : ∃ f ∈ Analysis.findings ctx o.checks, f.symbol = s := by
  have hreports : ctx.Reports s .unused := by
    rw [← Analysis.graph_of_context hctx] at hdefined
    exact ⟨hs, hdefined, hlive⟩
  obtain ⟨f, hf, -, hsymbol⟩ := (Analysis.Context.exists_finding_iff .unused).2
    ⟨hchecks, (Analysis.Context.exists_run_iff (Analysis.grounded_of_context hctx)).2 hreports⟩
  exact ⟨f, hf, hsymbol⟩

/-! ### A run -/

theorem factsOf_record : Collect.factsOf "m" "m.py" false record =
    .ok (unitFacts "m" "m.py" false record).facts := by
  have hok : (Collect.factsOf "m" "m.py" false record).isOk = true := by decide +kernel
  unfold unitFacts
  cases h : Collect.factsOf "m" "m.py" false record with
  | error e =>
    rw [h] at hok
    cases hok
  | ok facts => rfl

/-- Whether reading gives this module. -/
def givesRecord : Except Source.Fault (List Source.Stmt) → Bool
  | .ok [.classDef 2 "C" [] [] [.name 1 "dataclass" .load] [.simple []]] => true
  | _ => false

theorem eq_record_of_givesRecord {x : Except Source.Fault (List Source.Stmt)}
    (h : givesRecord x = true) : x = .ok record := by
  unfold givesRecord at h
  split at h
  · rfl
  · cases h

theorem collectOne_recordText : collectOne Source.read ∅ ⟨⟨"m.py", "m"⟩, .ok recordText⟩ =
    .fresh ⟨"m.py", "m", digest recordText, (unitFacts "m" "m.py" false record).facts⟩ := by
  have hread : Source.read recordText = .ok record :=
    eq_record_of_givesRecord (by decide +kernel)
  have hpackage : Collect.isPackageUnit "m.py" = false := by decide +kernel
  have hnone : reusable? ∅ ⟨"m.py", "m"⟩ recordText = none := rfl
  simp only [collectOne, hnone, Collect.collect, hread, hpackage, factsOf_record]

theorem analysedOn_record : ∃ res, result recordConfig [] recording = .ok res ∧
    analysedOn .standard recordDisk (recordRun.request recordConfig) = .ok (∅, recording, res) := by
  have hconfig : (recordRun.request recordConfig).config = recordConfig := rfl
  have hcompile : Ignore.compileAll Library.standard.pattern recordConfig.ignore = .ok [] := rfl
  have hheld : heldAt .standard recordDisk (manifestPath (recordRun.request recordConfig)) =
      .ok ∅ :=
    rfl
  have htexts : textsOn recordDisk recordConfig = [⟨⟨"m.py", "m"⟩, .ok recordText⟩] :=
    @textsOn_file recordDisk recordConfig (.ofText "m.py") rfl rfl
  have hcollect : collectAll Library.standard.statements ∅ (textsOn recordDisk recordConfig) =
      .ok recording := by
    rw [htexts]
    exact collectAll_singleton collectOne_recordText
  obtain ⟨res, hres⟩ := exists_result recordConfig recording
  refine ⟨res, hres, ?_⟩
  unfold analysedOn
  simp only [hconfig, hheld, hcompile, hcollect, hres, Except.mapError, ok_bind]
  rfl

theorem configuredRun_record : ∃ outcome m₁,
    (configuredRun host .standard recordRun).run.run { disk := recordDisk } =
      (.ok (recordConfig, outcome), m₁) ∧
    result recordConfig [] recording = .ok outcome.result := by
  obtain ⟨m, hload, hdisk⟩ : ∃ m, (Config.load host .standard none false).run.run
      { disk := recordDisk } = (.ok (Config.initial false), m) ∧ m.disk = recordDisk :=
        ⟨_, rfl, rfl⟩
  obtain ⟨res, hres, ha⟩ := analysedOn_record
  obtain ⟨m', -, -, -, hrun⟩ := run_eq .standard (recordRun.request recordConfig) m
  rw [hdisk, ha] at hrun
  have hfile : (nonEmpty recordRun.config).map Path.ofText = none := rfl
  have hoverride : (Config.initial false).override recordRun.overrides = .ok recordConfig := rfl
  refine ⟨⟨res, {}⟩, m', ?_, hres⟩
  unfold configuredRun
  rw [run_bind, run_lift, hfile, hload]
  dsimp only
  rw [run_bind, run_orEnd]
  dsimp only [Except.mapError]
  rw [run_bind, run_orEnd, hoverride]
  dsimp only [Except.mapError]
  rw [run_bind, hrun]
  rfl

/-- The class is defined and no entry point. -/
theorem find?_record : ∃ info, (graphOf recording).nodes.find? (.classOf "m.C") = some info ∧
    Analysis.isRoot (optionsOf recordConfig []).guess [] (.classOf "m.C") info = .ok false := by
  have hgraph : Represents ((allFacts recording).map Record.ofFact) (graphOf recording) :=
    represents_ofRecords _
  have hdefined : ∃ d ∈ Record.definitions ((allFacts recording).map Record.ofFact),
      d.1 = .classOf "m.C" := by
    decide +kernel
  have hroot : ∀ d ∈ Record.definitions ((allFacts recording).map Record.ofFact),
      d.1 = .classOf "m.C" →
        Analysis.isRoot (optionsOf recordConfig []).guess [] d.1 d.2 = .ok false := by
    decide +kernel
  obtain ⟨⟨s, info⟩, hmem, rfl⟩ := hdefined
  obtain ⟨kept, hkept⟩ := hgraph.definitions.complete hmem
  exact ⟨kept, hkept, hroot _ (hgraph.definitions.earliest hkept).1 rfl⟩

theorem callers_record : (graphOf recording).callers (.classOf "m.C") = [] := by decide +kernel

/-- The class is not live, because nothing calls it. -/
theorem lost_record {ctx : Analysis.Context}
    (hctx : Analysis.context (graphOf recording) (optionsOf recordConfig []) = .ok ctx) :
    .classOf "m.C" ∉ ctx.live := by
  obtain ⟨found, hfound, rfl⟩ := Analysis.context_eq_ok hctx
  intro hlive
  obtain ⟨r, hr, hreach⟩ := CallGraph.mem_reach_iff.1 hlive
  obtain rfl : r = .classOf "m.C" := by
    by_contra hne
    obtain ⟨t, -, ht⟩ := hreach.exists_last hne
    rw [← CallGraph.mem_callers_iff_mem_callees, callers_record] at ht
    cases ht
  obtain ⟨-, hroot⟩ := (Analysis.mem_rootsAmong_iff hfound).1 hr
  obtain ⟨info, hfind, hnot⟩ := find?_record
  have hinfo : Analysis.describe (graphOf recording) (graphOf recording).nodes (.classOf "m.C") =
      info := by
    rw [Analysis.describe, hfind]
    rfl
  change Analysis.isRoot _ _ _ (Analysis.describe (graphOf recording) (graphOf recording).nodes _) =
    _ at hroot
  rw [hinfo] at hroot
  cases hnot.symm.trans hroot

/-- The finding about the class is left. -/
theorem findings_record {findings : List Finding}
    (h : remaining (graphOf recording) (optionsOf recordConfig []) [] = .ok findings) :
    findings ≠ [] := by
  obtain ⟨ctx, hctx, hreject⟩ := Analysis.remaining_eq_ok h
  obtain ⟨info, hfind, -⟩ := find?_record
  obtain ⟨f, hf, hs⟩ := exists_finding_of_lost hctx (by decide +kernel) (by decide +kernel)
    (Table.contains_iff_find?.2 ⟨info, hfind⟩) (lost_record hctx)
  have hleft : f ∈ findings := (Ignore.mem_reject_iff hreject).2 ⟨hf, by rw [hs]; rfl, rfl⟩
  exact List.ne_nil_of_mem hleft

theorem withClass_unreported :
    (HasClasses withClass ∧ InitializersInert withClass) ∧
    (∃ r, analyze withClass {} = .ok r ∧ ∃ f ∈ r.findings, f.symbol = .fieldsOf "m.C") ∧
    (∃ kept, remaining withClass {} [hidingClass] = .ok kept ∧
      (∃ f ∈ kept, f.symbol = ⟨"m", "lost", 0⟩) ∧
      ∀ f ∈ kept, (∀ S, f.symbol ≠ .fieldsOf S) ∧ f.isPrintable = true) ∧
    .fieldsOf "m.C" ∈
      ((Collection.facts recording).flatMap fun u => (Fact.definitions u.facts).map (·.1)) ∧
    HasClasses (graphOf recording) ∧ InitializersInert (graphOf recording) ∧
    ∃ config outcome m₁ m',
      (configuredRun host .standard recordRun).run.run { disk := recordDisk } =
        (.ok (config, outcome), m₁) ∧ outcome.result.graph = graphOf recording ∧
      (analyse host .standard recordRun).run.run { disk := recordDisk } = (.ok 1, m') ∧
      ∃ f ∈ outcome.result.findings, f.isPrintable = true ∧ ∃ before after, m'.printed =
        m₁.printed ++ before ++ (f.diagnostic m₁.disk.directory ++ "\n") ++ after := by
  obtain ⟨hleft, -, hgraphs⟩ :=
    initializers_unreported Analysis.hasClasses_withClass inert_withClass
  obtain ⟨hexists, hunreported⟩ := hleft {} [hidingClass] rfl
  have htotal : ∀ spec ∈ [hidingClass], spec.Total := by
    intro spec hspec
    obtain rfl := List.mem_singleton.1 hspec
    exact fun s info => ⟨_, rfl⟩
  obtain ⟨kept, hkept⟩ := hexists (fun spec hspec => absurd hspec List.not_mem_nil) htotal
  obtain ⟨ctx, hctx, hreject⟩ := Analysis.remaining_eq_ok hkept
  have hnone : ∀ s, s ∉ ctx.live := by
    cases hctx
    intro s hmem
    obtain ⟨r, hr, -⟩ := CallGraph.mem_reach_iff.1 hmem
    cases hr
  have hdistinct : UnitsDistinct recording := by
    change ["m.py"].Nodup
    decide
  obtain ⟨hclasses, hinert⟩ := hgraphs recording hdistinct fun u hu => by
    obtain rfl := List.mem_singleton.1 hu
    refine ⟨false, record, ?_, factsOf_record⟩
    simp only [record, Source.Stmt.AllNamed, Source.Stmt.Named, Source.Expr.AllNamed,
      Source.Expr.Named]
    decide
  refine ⟨⟨Analysis.hasClasses_withClass, inert_withClass⟩, ?_, ?_, ?_, hclasses, hinert, ?_⟩
  · refine ⟨⟨_, ctx.roots, ctx.live⟩, by rw [analyze, hctx]; rfl, ?_⟩
    exact exists_finding_of_lost hctx (by decide +kernel) (by decide) (by decide) (hnone _)
  · obtain ⟨f, hf, hs⟩ := exists_finding_of_lost hctx (s := ⟨"m", "lost", 0⟩) (by decide +kernel)
      (by decide) (by decide) (hnone _)
    refine ⟨kept, hkept, ⟨f, (Ignore.mem_reject_iff hreject).2 ⟨hf, ?_, ?_⟩, hs⟩,
      hunreported kept hkept⟩
    · rw [hs]
      rfl
    · rw [hs]
      rfl
  · decide +kernel
  · obtain ⟨-, hruns, -⟩ := initializers_unreported hclasses hinert
    obtain ⟨outcome, m₁, hran, hres⟩ := configuredRun_record
    obtain ⟨hgraph, hleft⟩ := remaining_of_result hres
    rw [hgraph] at hleft
    obtain ⟨m', -, -, hcode⟩ := run_analyse hran
    rw [if_neg (by simpa using findings_record hleft), if_pos (by decide)] at hcode
    obtain ⟨_, _, _, hran', hprinted⟩ := hruns _ _ _ _ hcode
    rw [hran] at hran'
    cases hran'
    obtain ⟨hprintable, f, hf, hdiagnostic⟩ := hprinted hgraph
    exact ⟨recordConfig, outcome, m₁, m', hran, hgraph, hcode, f, hf, hprintable f hf, hdiagnostic⟩

end Command

end Deadwood
