import Deadwood.Analysis.Check

/-!
# Analysing a call graph

`analyze` computes the roots and what they reach, runs the checks asked for and puts all findings in
order.
-/

namespace Deadwood

namespace Analysis

/-- What an analysis is asked for. -/
structure Options where
  /-- Descriptions that take precedence over those of the graph. -/
  metas : Option (Table Symbol Meta) := none
  /-- The names of the checks; unknown names are passed over. -/
  checks : List String := Check.defaults
  guess : Option RootGuess := none
  /-- Specifications whose symbols count as roots. -/
  rootSpecs : List Ignore.Spec := []
  severity : String := "hint"
  exemptLikelyRoots : Bool := true

/-- What an analysis finds. -/
structure Result where
  findings : List Finding
  roots : List Symbol
  live : List Symbol

/-- The context of an analysis. -/
def context (g : ProjectGraph) (o : Options) : Except Ignore.PredicateFailure Context := do
  let metas := o.metas.getD g.nodes
  let roots ← roots g metas o.guess o.rootSpecs
  pure {
    graph := g, metas, roots, live := g.reach roots, guess := o.guess, severity := o.severity
    exemptLikelyRoots := o.exemptLikelyRoots }

/-- All findings of the checks with the given names, in order. -/
def findings (ctx : Context) (checks : List String) : List Finding :=
  ((checks.filterMap Check.ofName?).flatMap ctx.run).mergeSort Finding.le

end Analysis

/-- Analyses a call graph. -/
def analyze (g : ProjectGraph) (o : Analysis.Options) :
    Except Ignore.PredicateFailure Analysis.Result := do
  let ctx ← Analysis.context g o
  pure ⟨Analysis.findings ctx o.checks, ctx.roots, ctx.live⟩

end Deadwood
