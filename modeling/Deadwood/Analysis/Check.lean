import Deadwood.Analysis.Roots
import Deadwood.Dotted
import Deadwood.Finding
import Deadwood.Graph.Components
import Deadwood.Text.Case

/-!
# Checks

Three checks look at the definitions of a graph, given the roots and what they reach:

* `Check.unused` reports definitions that no root reaches;
* `Check.narrowable` reports public definitions that are called, but only from inside their scope;
* `Check.recursiveOnly` reports the members of cycles that hold no root and that nothing live calls
  from outside.

The code of a module itself is never reported.
-/

namespace Deadwood.Analysis

/-- What the checks look at. -/
structure Context where
  graph : ProjectGraph
  metas : Table Symbol Meta
  roots : List Symbol
  /-- What the roots reach. -/
  live : List Symbol
  guess : Option RootGuess
  severity : String
  /-- Whether probable entry points are exempt from the check for visibility. -/
  exemptLikelyRoots : Bool

/-- A check. -/
inductive Check where
  | narrowable
  | unused
  | recursiveOnly
deriving Repr, DecidableEq

namespace Check

/-- The checks that run unless others are asked for, in order. -/
def defaults : List String := ["private", "unused", "recursive_only"]

/-- The name of a check. -/
def text : Check → String
  | .narrowable => "private"
  | .unused => "unused"
  | .recursiveOnly => "recursive_only"

/-- The check that a name asks for; case, hyphens and surrounding blanks do not matter. -/
def ofName? (name : String) : Option Check :=
  let key := Text.replaceChar '-' '_' (Text.lower (Text.trim name))
  if key = "private" || key = "narrowable_visibility" || key = "narrowable" then some .narrowable
  else if key = "unused" then some .unused
  else if key = "recursive_only" || key = "recursive" || key = "recursiveonly" then
    some .recursiveOnly
  else none

end Check

namespace Context

/-- What is known about `s`. -/
def describe (ctx : Context) (s : Symbol) : Meta := Analysis.describe ctx.graph ctx.metas s

/-- A finding about `s`; `rest` follows the symbol in the message. -/
def finding (ctx : Context) (s : Symbol) (kind : FindingKind) (rest : String) : Finding where
  symbol := s
  kind := kind
  location := (ctx.describe s).location
  message := s.describe ++ rest
  severity := ctx.severity

/-- Whether a symbol may be reported. -/
def reportable (s : Symbol) : Bool := s.name ≠ Symbol.bodyName

/-- Definitions that no root reaches. -/
def unused (ctx : Context) : List Finding :=
  (ctx.graph.definitions.filter fun s => !ctx.live.contains s && reportable s).map fun s =>
    ctx.finding s .unused " is unused"

/-- Whether `inner` is a class inside `scope`, by its name. -/
def isClassInside (g : ProjectGraph) (scope inner : String) : Bool :=
  Text.startsWith inner (scope ++ ".") && g.isDefined (.classOf inner)

/-- A class inside a scope is left for a shorter name. -/
theorem length_cut_lt_of_isClassInside {g : ProjectGraph} {scope inner : String}
    (h : isClassInside g scope inner = true) :
    (Dotted.cut inner).1.toList.length < inner.toList.length := by
  obtain ⟨rest, hrest⟩ := List.isPrefixOf_iff_prefix.1 (Bool.and_eq_true_iff.1 h).1
  have hdot : '.' ∈ inner.toList := by
    rw [← hrest]
    simp
  exact Dotted.length_cut_lt hdot

/-- Whether a caller's scope is `scope` or a class nested in it: the classes around the caller are
left one by one until `scope` is found. -/
def within (g : ProjectGraph) (callerScope scope : String) : Bool :=
  if callerScope = scope then true
  else if _h : isClassInside g scope callerScope = true then
    within g (Dotted.cut callerScope).1 scope
  else false
termination_by callerScope.toList.length
decreasing_by exact length_cut_lt_of_isClassInside _h

/-- Whether a definition could be private. -/
def isNarrowable (ctx : Context) (s : Symbol) : Bool :=
  let info := ctx.describe s
  let callers := (ctx.graph.callers s).filter (· ≠ s)
  info.isPublic && !info.export && !info.generated && reportable s &&
    !(ctx.exemptLikelyRoots && ctx.guess.any fun o => o s info) &&
    !callers.isEmpty && callers.all fun c => within ctx.graph c.scope s.scope

/-- Public definitions that are used only inside their scope. -/
def narrowable (ctx : Context) : List Finding :=
  (ctx.graph.definitions.filter ctx.isNarrowable).map fun s =>
    ctx.finding s .narrowable (" should be private (is not used outside " ++ s.scope ++ ")")

/-- Whether a component has a cycle. -/
def isCyclic (g : ProjectGraph) : List Symbol → Bool
  | [s] => (g.callees s).contains s
  | members => 1 < members.length

/-- Whether a component is used only by itself. -/
def isSelfContained (ctx : Context) (members : List Symbol) : Bool :=
  isCyclic ctx.graph members && !members.any ctx.roots.contains &&
    !(members.flatMap ctx.graph.callers).any fun c =>
      !members.contains c && ctx.live.contains c

/-- Members of cycles that are used only by themselves. -/
def recursiveOnly (ctx : Context) : List Finding :=
  (ctx.graph.components.filter ctx.isSelfContained).flatMap fun members =>
    (members.filter reportable).map fun s =>
      ctx.finding s .recursiveOnly " is only recursively called"

/-- The findings of a check. -/
def run (ctx : Context) : Check → List Finding
  | .narrowable => ctx.narrowable
  | .unused => ctx.unused
  | .recursiveOnly => ctx.recursiveOnly

end Context

end Deadwood.Analysis
