import Deadwood.Graph.Basic
import Deadwood.Ignore.Spec

/-!
# Entry points

The roots of an analysis are the public definitions that are exported, that look like entry
points of some framework, or that an ignore specification covers.
-/

namespace Deadwood.Analysis

/-- A guess whether a definition is an entry point. -/
abbrev RootGuess := Symbol → Meta → Bool

/-- What is known about `s`: from `metas`, else from the graph. -/
def describe (g : ProjectGraph) (metas : Table Symbol Meta) (s : Symbol) : Meta :=
  ((metas.find? s).or (g.nodes.find? s)).getD {}

/-- Whether a definition is a root. -/
def isRoot (guess : Option RootGuess) (specs : List Ignore.Spec) (s : Symbol) (info : Meta) :
    Except Ignore.PredicateFailure Bool :=
  if !info.isPublic then .ok false
  else if info.export then .ok true
  else if guess.any fun o => o s info then .ok true
  else Ignore.matchesAny specs s (some info)

/-- The roots among definitions. -/
def rootsAmong (g : ProjectGraph) (metas : Table Symbol Meta) (guess : Option RootGuess)
    (specs : List Ignore.Spec) : List Symbol → Except Ignore.PredicateFailure (List Symbol)
  | [] => .ok []
  | s :: rest => do
    let root ← isRoot guess specs s (describe g metas s)
    let others ← rootsAmong g metas guess specs rest
    pure (if root then s :: others else others)

/-- The roots of a graph, in order. -/
def roots (g : ProjectGraph) (metas : Table Symbol Meta) (guess : Option RootGuess)
    (specs : List Ignore.Spec) : Except Ignore.PredicateFailure (List Symbol) :=
  rootsAmong g metas guess specs g.definitions

end Deadwood.Analysis
