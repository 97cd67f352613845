import Deadwood.Collect
import Deadwood.File.Disk
import Deadwood.Manifest
import Deadwood.Project.Discover
import Deadwood.Project.Exports

/-!
# Collecting a project

Every source of a project is read and tells its facts. If a manifest has an entry for it with the
digest of its content and the name of its module, the facts of the entry are taken. A source that
cannot be collected fails alone.

* `collectOne` says what becomes of a source, `collectAll` of all of them, given how sources are
  read.
* `Collection.units` are the facts that were collected, `Collection.manifest` what a manifest keeps
  of them.
-/

namespace Deadwood.Project

open Collect (UnitFacts Failure BlankDocumentation)

/-- A source with what reading its file gave. -/
structure SourceText where
  source : SourceFile
  content : Except FileError (List UInt8)

/-- What became of a source. -/
inductive Collected where
  /-- The facts were taken from a manifest. -/
  | reused (facts : UnitFacts)
  /-- The facts were collected anew. -/
  | fresh (facts : UnitFacts)
  | failed (unit : String) (reason : Failure)

namespace Collected

/-- The facts of a source that did not fail. -/
def facts? : Collected → Option UnitFacts
  | .reused u | .fresh u => some u
  | .failed _ _ => none

/-- The unit of a source whose facts were reused. -/
def reused? : Collected → Option String
  | .reused u => some u.unit
  | _ => none

/-- The unit of a source whose facts were collected anew. -/
def fresh? : Collected → Option String
  | .fresh u => some u.unit
  | _ => none

/-- The unit of a source that failed, and why. -/
def failed? : Collected → Option (String × Failure)
  | .failed unit reason => some (unit, reason)
  | _ => none

end Collected

/-- What became of the sources of a project, in their order. -/
abbrev Collection := List Collected

/-- The entry that still holds for a source with the given content. -/
def reusable? (previous : Manifest) (s : SourceFile) (content : List UInt8) :
    Option Manifest.Entry :=
  (previous.find? s.unit).filter fun e => e.digest = digest content && e.module = s.module

variable (statements : List UInt8 → Except Source.Fault (List Source.Stmt))

/-- What becomes of a source. -/
def collectOne (previous : Manifest) (s : SourceText) : Collected :=
  match s.content with
  | .error e => .failed s.source.unit (.unreadable e.fault)
  | .ok content =>
    match reusable? previous s.source content with
    | some e => .reused ⟨s.source.unit, s.source.module, e.digest, e.facts⟩
    | none =>
      match Collect.collect statements s.source.module s.source.unit content with
      | .ok facts => .fresh facts
      | .error reason => .failed s.source.unit reason

/-- Whether a source failed because some documentation in it has no line with text. -/
def Collected.isBlank : Collected → Bool
  | .failed _ .blankDocumentation => true
  | _ => false

/-- What becomes of all sources; documentation without text in any of them ends the run. -/
def collectAll (previous : Manifest) (sources : List SourceText) :
    Except BlankDocumentation Collection :=
  let c := sources.map (collectOne statements previous)
  if c.any Collected.isBlank then .error {} else .ok c

namespace Collection

/-- The facts that were collected. -/
def facts (c : Collection) : List UnitFacts := c.filterMap Collected.facts?

/-- The facts that were collected, by unit. -/
def units (c : Collection) : Units := .ofList ((facts c).map fun u => (u.unit, u.facts))

/-- What a manifest keeps of the facts. -/
def manifest (c : Collection) : Manifest :=
  .ofList ((facts c).map fun u => (u.unit, ⟨u.digest, u.module, u.facts⟩))

/-- The units that failed, in order, and why. -/
def failed (c : Collection) : List (String × Failure) := c.filterMap Collected.failed?

/-- The warnings about units that failed. -/
def warnings (c : Collection) : List String :=
  ((failed c).mergeSort fun a b => a.1 ≤ b.1).map fun (unit, reason) =>
    unit ++ " 无法分析，已跳过: " ++ reason.reason

end Collection

end Deadwood.Project
