import Deadwood.Analysis
import Deadwood.Config
import Deadwood.Dispatch
import Deadwood.EntryPoint
import Deadwood.Graph.Build
import Deadwood.Ignore.Reject
import Deadwood.Project.Collection
import Deadwood.Project.Link
import Deadwood.Report.Stats

/-!
# The result of analysing a project

What was collected is linked, the exports are completed, and the call graph of all facts is
analysed.

* `graphOf` is the call graph of what was collected.
* `Result` is what an analysis gives, `result` computes it.
* `Result.summary` counts.
-/

namespace Deadwood.Project

/-- A fact in which the description of a symbol is the complete one. -/
def described (metas : Table Symbol Meta) : Fact → Fact
  | .definition s info => .definition s (metas.findD s info)
  | f => f

/-- All facts of a project, linked and described. -/
def allFacts (c : Collection) : List Fact :=
  let linked := link c.units
  let metas := exports linked (c.failed.map (·.1))
  (sortedUnits linked).flatMap fun u => u.2.map (described metas)

/-- The call graph of what was collected. -/
def graphOf (c : Collection) : ProjectGraph := .ofFacts (allFacts c)

/-- What an analysis is asked for. -/
def optionsOf (config : Config) (specs : List Ignore.Spec) : Analysis.Options where
  checks := config.checks
  guess := some (EntryPoint.isLikely (EntryPoint.rules config.documentedIsRoot))
  rootSpecs := specs
  severity := config.severity.text
  exemptLikelyRoots := config.exemptLikelyRoots

/-- The counts of a run. -/
structure Summary where
  files : Nat
  collected : Nat
  reused : Nat
  failed : Nat
  symbols : Nat
  edges : Nat
  dropped : Nat
  roots : Nat
  live : Nat
  findings : Nat

/-- The fields of a summary. -/
def Summary.toFields (s : Summary) : List (String × Value) :=
  [("files", .int s.files), ("collected", .int s.collected), ("reused", .int s.reused),
    ("failed", .int s.failed), ("symbols", .int s.symbols), ("edges", .int s.edges),
    ("dropped_facts", .int s.dropped), ("roots", .int s.roots), ("live", .int s.live),
    ("findings", .int s.findings)]

/-- What analysing a project gives. -/
structure Result where
  graph : ProjectGraph
  findings : List Finding
  live : List Symbol
  summary : Summary
  /-- The signatures of the functions that look up names at run time, by scope. -/
  dispatchers : List (String × List (String × Int))
  warnings : List String

/-- Analyses what was collected. -/
def result (config : Config) (specs : List Ignore.Spec) (c : Collection) :
    Except Ignore.PredicateFailure Result := do
  let graph := graphOf c
  let analysis ← analyze graph (optionsOf config specs)
  let findings ← Ignore.reject analysis.findings specs graph.nodes
  let dispatchers := Dispatch.dispatchers graph
  pure {
    graph, findings, dispatchers
    live := analysis.live
    warnings := c.warnings ++ Dispatch.warnings dispatchers
    summary := {
      files := c.length
      collected := (c.filterMap Collected.fresh?).length
      reused := (c.filterMap Collected.reused?).length
      failed := c.failed.length
      symbols := graph.nodes.entries.length
      edges := graph.sites.entries.length
      dropped := graph.dropped
      roots := analysis.roots.length
      live := analysis.live.length
      findings := findings.length } }

/-- The dispatchers as an object. -/
def dispatchersValue (ds : List (String × List (String × Int))) : Value :=
  .dict (ds.map fun (scope, fs) =>
    (scope, .list (fs.map fun (name, arity) => .list [.str name, .int arity])))

/-- What a report tells besides the findings. -/
def Result.extra (r : Result) : List (String × Value) :=
  [("summary", .dict r.summary.toFields), ("dynamic_dispatchers", dispatchersValue r.dispatchers),
    ("warnings", .list (r.warnings.map .str))]

end Deadwood.Project
