import Deadwood.Graph.Basic
import Deadwood.Search

/-!
# Reachable definitions

`CallGraph.reach` lists the defined symbols that can be reached from given symbols along calls
between defined symbols. `CallGraph.Reaches` is the relation that it computes.
-/

namespace Deadwood.CallGraph

variable {M L : Type}

/-- There is a path of calls from `a` to `b`, all of whose symbols are defined. -/
inductive Reaches (g : CallGraph M L) : Symbol → Symbol → Prop where
  | refl {a : Symbol} (h : g.isDefined a) : Reaches g a a
  | step {a b c : Symbol} (h : Reaches g a b) (e : c ∈ g.callees b) (hc : g.isDefined c) :
      Reaches g a c

/-- The defined symbols reached from `roots`. -/
def reach (g : CallGraph M L) (roots : List Symbol) : List Symbol :=
  Search.visit g.definitions g.callees roots []

end Deadwood.CallGraph
