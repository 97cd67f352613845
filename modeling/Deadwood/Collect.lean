import Deadwood.Collect.Outline
import Deadwood.Collect.Walk
import Deadwood.Digest
import Deadwood.File.Disk
import Deadwood.Source.Module

/-!
# Collecting the facts of a module

A module tells what it defines and what it calls, before names are resolved across the project. Its
own code is a definition, too, which carries the imports of the module and the names that it offers
as its own.

* `factsOf` gives the facts of a syntax tree.
* `collect` gives those of a source file, with its digest, given how sources are read.
-/

namespace Deadwood.Collect

open Source (Stmt Summary summary)

/-! ## Public names -/

/-- The names under which events define symbols in the module's own code. -/
def topNames (events : List Event) : List String :=
  events.filterMap fun
    | .define _ _ _ top => top
    | .use .. => none

/-- A list of texts in order, each once. -/
def sortedSet (xs : List String) : List String := (xs.mergeSort fun a b => a ≤ b).eraseReps

/-- The names that a module offers: those it declares, or else, for a package at the top of the
project, its relative imports and the definitions that are not private. -/
def offered (p : Place) (declared relative : List String) (events : List Event) : List String :=
  if declared.isEmpty && p.isPackage && !Text.contains p.module "." then
    sortedSet relative ++ (sortedSet (topNames events)).filter (!Text.startsWith · "_")
  else declared

/-- The dotted names of the imports that a module offers as its own. -/
def reexported (names : List String) (defined : List String) (imports : Table String String) :
    List String :=
  sortedSet ((names.filter (!defined.contains ·)).filterMap imports.find?)

/-! ## Facts -/

/-- Why a syntax tree has no facts: some documentation has no line with text. -/
structure BlankDocumentation where
deriving Repr, DecidableEq

/-- The documentation as it is recorded. -/
def docValue : Summary → Except BlankDocumentation Value
  | .absent => .ok .null
  | .line s => .ok (.str s)
  | .blank => .error {}

/-- The fact that an event tells. -/
def eventFact (unit : String) (names : List String) : Event → Except BlankDocumentation Fact
  | .define symbol info doc top => do
    return .definition symbol { info with
      file := unit
      doc := ← docValue doc
      «export» := top.any names.contains }
  | .use caller callee line => .ok (.call caller callee ⟨unit, line⟩)

/-- The definition of a module's own code, up to its documentation. -/
def bodyEvent (module : String) (body : List Stmt) (reexports : List String)
    (imports : Table String String) : Event :=
  .define (Symbol.body module)
    { line := 1, generated := true, kind := "module", reexports
      aliases := ⟨imports.entries.mergeSort fun a b => a.1 ≤ b.1⟩ }
    (summary body) none

/-- The facts of a module. -/
def factsOf (module unit : String) (isPackage : Bool) (body : List Stmt) :
    Except BlankDocumentation (List Fact) :=
  let o := outline module isPackage body
  let p := Place.top module isPackage o.defined
  let (events, n) := walkAll p o.imports body
  let names := offered p o.declared n.relative events
  let reexports := reexported names (topNames events) n.module
  (bodyEvent module body reexports n.module :: events).mapM (eventFact unit names)

/-! ## Units -/

/-- Why a source file cannot be collected. -/
inductive Failure where
  /-- The file cannot be read. -/
  | unreadable (f : FileFault)
  | fault (f : Source.Fault)
  /-- Some documentation has no line with text. -/
  | blankDocumentation
deriving Repr, DecidableEq

/-- Why a source file cannot be collected, in words. -/
def Failure.reason : Failure → String
  | .unreadable f => "cannot read file (" ++ f.text ++ ")"
  | .fault f => f.message
  | .blankDocumentation => "documentation without text"

/-- What a source file tells. -/
structure UnitFacts where
  unit : String
  module : String
  digest : String
  facts : List Fact
deriving Inhabited

/-- Whether a unit is the file of a package. -/
def isPackageUnit (unit : String) : Bool :=
  ((Text.splitOn '/' unit).getLast?).getD "" = "__init__.py"

/-- The facts of a source file with the given content; `statements` reads sources. -/
def collect (statements : List UInt8 → Except Source.Fault (List Stmt)) (module unit : String)
    (content : List UInt8) : Except Failure UnitFacts :=
  match statements content with
  | .error f => .error (.fault f)
  | .ok body =>
    match factsOf module unit (isPackageUnit unit) body with
    | .error _ => .error .blankDocumentation
    | .ok facts => .ok ⟨unit, module, digest content, facts⟩

end Deadwood.Collect
