import Deadwood.Project.Index

/-!
# Linking the units of a project

`link` replaces the unresolved callees of all units by the symbols that they may refer to, and
completes what the definitions say about the names they offer and the classes they build on.

* `mayOverride` says whether a method may replace one of a class outside the project.
* `linkDefinition` and `linkCall` treat one fact.
-/

namespace Deadwood.Project

/-- Bases that have no method worth replacing. -/
def neutralBases : List String := [
  "object", "builtins.object", "abc.ABC", "typing.Generic", "typing.Protocol", "typing.NamedTuple",
  "typing.TypedDict", "typing_extensions.Protocol", "typing_extensions.TypedDict", "enum.Enum",
  "enum.IntEnum", "enum.StrEnum", "enum.Flag", "enum.IntFlag"]

/-- Whether a method may replace one of a base outside the project: of a built-in type the
attributes are known, of any other base nothing is. -/
def mayOverride (base name : String) : Bool :=
  if neutralBases.contains base then false
  else
    let mark := "builtins."
    let short := if Text.startsWith base mark then Text.drop base mark.length else base
    match builtinAttributes? short with
    | some names => names.contains name
    | none => true

/-- Completes the description of a definition. -/
def linkMeta (ix : Index) (s : Symbol) (info : Meta) : Meta :=
  if s.name = Symbol.bodyName && !info.reexports.isEmpty then
    let resolved := info.reexports.map ix.resolveAlias
    { info with reexports := (resolved.mergeSort fun a b => a ≤ b).eraseReps }
  else if s.name = Symbol.recordName && s.arity = 0 then
    { info with implements := ix.classes.findD s.scope info.implements }
  else if info.kind = "method" then
    { info with implements := (ix.externalBases s.scope).filter (mayOverride · s.name) }
  else info

/-- The facts that a fact becomes. -/
def linkFact (ix : Index) : Fact → List Fact
  | .definition s info => [.definition s (linkMeta ix s info)]
  | .call caller callee site => (ix.resolve callee).map (.call caller · site)

/-- Whether a fact is a call that occurs in a list. -/
def isRepeated (seen : List Fact) : Fact → Bool
  | .definition .. => false
  | .call caller callee site => seen.any fun
    | .call caller' callee' site' => (caller, callee, site) = (caller', callee', site')
    | .definition .. => false

/-- The facts without the calls that come a second time. -/
def dropRepeated (facts : List Fact) : List Fact :=
  (facts.foldl (fun seen f => if isRepeated seen f then seen else f :: seen) []).reverse

/-- The facts of a unit with its callees resolved. -/
def linkUnit (ix : Index) (facts : List Fact) : List Fact :=
  dropRepeated (facts.flatMap (linkFact ix))

/-- The units of a project with their callees resolved, in order. -/
def link (units : Units) : Units :=
  let ix := Index.ofUnits units
  ⟨(sortedUnits units).map fun u => (u.1, linkUnit ix u.2)⟩

end Deadwood.Project
