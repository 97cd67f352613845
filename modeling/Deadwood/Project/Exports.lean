import Deadwood.Dotted
import Deadwood.Fact

/-!
# Exported definitions

`Project.exports` gives for every symbol of a project what is known about it, with the exports
completed: a public definition is exported if its own description says so, if a module offers it as
its own, or if it is a method of an exported class. Of several definitions of a symbol the first
counts, units being taken in the order of their names.
-/

namespace Deadwood.Project

/-- The facts of each source unit. -/
abbrev Units := Table String (List Fact)

/-- The units in the order of their names. -/
def sortedUnits (units : Units) : List (String × List Fact) :=
  units.entries.mergeSort fun a b => a.1 ≤ b.1

/-- The definitions of the units that are not excluded, in order. -/
def definitionsOf (units : Units) (excluded : List String) : List (Symbol × Meta) :=
  ((sortedUnits units).filter fun u => !excluded.contains u.1).flatMap fun u =>
    Fact.definitions u.2

/-- The first definition of every symbol. -/
def firstDefinitions (definitions : List (Symbol × Meta)) : Table Symbol Meta :=
  definitions.foldl (fun t d => t.insertNew d.1 d.2) ∅

/-- The dotted names that modules offer as their own. -/
def reexports (metas : Table Symbol Meta) : List String :=
  metas.entries.flatMap fun (s, info) => if s.name = Symbol.bodyName then info.reexports else []

/-- Whether a dotted name names a symbol or, for a class, the class itself. -/
def names (target : String) (s : Symbol) : Bool :=
  (s.scope, s.name) = Dotted.cut target || s = Symbol.classOf target

/-- Marks a public definition that satisfies `p` as exported. -/
def markExported (p : Symbol → Meta → Bool) (metas : Table Symbol Meta) : Table Symbol Meta :=
  ⟨metas.entries.map fun (s, info) =>
    (s, if info.isPublic && p s info then { info with «export» := true } else info)⟩

/-- The scopes of the exported classes. -/
def exportedClasses (metas : Table Symbol Meta) : List String :=
  metas.entries.filterMap fun (s, info) =>
    if s.name = Symbol.recordName && s.arity = 0 && info.export then some s.scope else none

/-- What is known about every symbol of a project, the exports being complete. -/
def exports (units : Units) (excluded : List String) : Table Symbol Meta :=
  let metas := firstDefinitions (definitionsOf units excluded)
  let targets := reexports metas
  let offered := markExported (fun s _ => targets.any fun t => names t s) metas
  let classes := exportedClasses offered
  markExported (fun s info => info.kind = "method" && classes.contains s.scope) offered

end Deadwood.Project
