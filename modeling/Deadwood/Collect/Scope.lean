import Deadwood.Builtin
import Deadwood.Dotted
import Deadwood.Fact
import Deadwood.Source.Syntax

/-!
# Names in scope

What a name in a source text stands for depends on where it is written (`Place`) and on the imports
and aliases seen so far (`Names`). A name that is found stands for a dotted name.

* `Names.bind` and `Names.push` change what is known; `Place.imports` lists what an import binds.
* `resolve?` looks a name up: in the functions around it, in the class it is written in, among the
  module's own definitions, and among the module's aliases.
* `callee?` and `mention?` give the unresolved symbol that a call or a use of a name refers to.
-/

namespace Deadwood.Source.Expr

/-- The dotted name that an expression is built on; calls and subscripts are passed through. -/
def dotted? : Expr → Option String
  | .name _ id _ => some id
  | .member _ value field _ => value.dotted?.map (Dotted.below · field)
  | .call _ function _ _ => function.dotted?
  | .subscript value _ => value.dotted?
  | _ => none

/-- The dotted name of a name or attribute. -/
def reference? : Expr → Option String
  | .name _ id _ => some id
  | .member _ value field _ => value.dotted?.map (Dotted.below · field)
  | _ => none

end Deadwood.Source.Expr

namespace Deadwood.Collect

open Source (Expr Stmt Import)

/-! ## Places -/

/-- A class around a place. -/
structure Enclosure where
  /-- The dotted name of the class. -/
  name : String
  /-- The dotted names of its bases. -/
  bases : List String
  /-- The names defined directly in its body. -/
  members : List String
deriving Repr, DecidableEq, Inhabited

/-- Where in a module something is written. -/
structure Place where
  module : String
  isPackage : Bool
  /-- The names that the module defines. -/
  defined : List String := []
  /-- The classes around the place, innermost first. -/
  classes : List Enclosure := []
  /-- Whether the place is inside a function. -/
  inFunction : Bool := false
  /-- The definition that owns what is used here. -/
  caller : Symbol
deriving Repr, Inhabited

namespace Place

/-- The place of a module's own code. -/
def top (module : String) (isPackage : Bool) (defined : List String) : Place :=
  { module, isPackage, defined, caller := Symbol.body module }

/-- Whether the place is directly in a class. -/
def inClass (p : Place) : Bool := !p.inFunction && !p.classes.isEmpty

/-- Whether the place is in the module's own code. -/
def atTop (p : Place) : Bool := !p.inFunction && p.classes.isEmpty

/-- The dotted name of the class around the place, or else of the module. -/
def scope (p : Place) : String := (p.classes.head?.map (·.name)).getD p.module

/-- The place inside a function. -/
def insideFunction (p : Place) (f : Symbol) : Place := { p with inFunction := true, caller := f }

/-- The place directly inside a class. -/
def insideClass (p : Place) (c : Enclosure) : Place :=
  { p with classes := c :: p.classes, caller := Symbol.classOf c.name }

end Place

/-- The name that a statement defines. -/
def definedName? : Stmt → Option String
  | .function _ name _ _ _ => some name
  | .classDef _ name _ _ _ _ => some name
  | _ => none

/-! ## Bindings -/

/-- The imports and aliases that are known. -/
structure Names where
  /-- Those of the module. -/
  module : Table String String := ∅
  /-- The names of the module that come from relative imports. -/
  relative : List String := []
  /-- Those of the functions around, innermost first. -/
  locals : List (Table String String) := []
deriving Repr, Inhabited

namespace Names

/-- Enters a function. -/
def push (n : Names) : Names := { n with locals := ∅ :: n.locals }

/-- Binds a name for the module. -/
def bindTop (n : Names) (name target : String) : Names :=
  { n with module := n.module.insert name target }

/-- Binds an imported name in the innermost function, or else for the module. -/
def bind (n : Names) (isRelative : Bool) (name target : String) : Names :=
  match n.locals with
  | [] => { n.bindTop name target with
      relative := if isRelative then name :: n.relative else n.relative }
  | t :: rest => { n with locals := t.insert name target :: rest }

end Names

/-- The dotted name of the module that an import with leading dots starts from. -/
def Place.packageUp (p : Place) (level : Nat) : List String :=
  let parts := Dotted.segments p.module
  let package := if p.isPackage then parts else parts.dropLast
  package.take (package.length - (level - 1))

/-- The dotted name of the module that a statement imports from. -/
def Place.importedModule (p : Place) (level : Nat) (module : String) : String :=
  if level = 0 then module
  else Dotted.join (p.packageUp level ++ if module = "" then [] else [module])

/-- The names that an import binds and what they stand for. -/
def Place.imports (p : Place) : Stmt → List (String × String)
  | .importModules names => names.map fun i =>
    match i.rename with
    | some name => (name, i.name)
    | none => (Dotted.first i.name, Dotted.first i.name)
  | .importFrom level module names =>
    let source := p.importedModule level module
    (names.filter (·.name ≠ "*")).map fun i =>
      (i.rename.getD i.name, if source = "" then i.name else Dotted.below source i.name)
  | _ => []

/-- Whether a statement is a relative import. -/
def isRelativeImport : Stmt → Bool
  | .importFrom level _ _ => level > 0
  | _ => false

/-- Binds what a statement imports. -/
def Names.register (n : Names) (p : Place) (s : Stmt) : Names :=
  (p.imports s).foldl (fun n b => n.bind (isRelativeImport s) b.1 b.2) n

/-! ## Looking up -/

/-- The first table that knows a name. -/
def findIn (name : String) (tables : List (Table String String)) : Option String :=
  tables.findSome? (·.find? name)

/-- The dotted name that a name stands for. -/
def resolve? (p : Place) (n : Names) (name : String) : Option String :=
  findIn name n.locals <|>
  (if p.inClass then p.classes.head?.bind fun c =>
    if c.members.contains name then some (Dotted.below c.name name) else none else none) <|>
  (if p.defined.contains name then some (Dotted.below p.module name) else none) <|>
  n.module.find? name

/-- The dotted name with its first segment looked up. -/
def resolveDotted? (p : Place) (n : Names) (dotted : String) : Option String :=
  match Text.cutFirst '.' dotted with
  | none => resolve? p n dotted
  | some (head, rest) => (resolve? p n head).map (Dotted.below · rest)

/-- Whether a name stands for the object or class that a method belongs to. -/
def isReceiver (name : String) : Bool := name = "self" || name = "cls"

/-- The dotted name of an attribute of an expression. -/
def resolveAttribute? (p : Place) (n : Names) (value : Expr) (field : String) : Option String :=
  let plain := do
    let dotted ← value.reference?
    if isReceiver (Dotted.first dotted) then none
    else (resolveDotted? p n dotted).map (Dotted.below · field)
  match value, p.classes.head? with
  | .name _ id _, some c => if isReceiver id then some (Dotted.below c.name field) else plain
  | _, _ => plain

/-- The scope of calls of attributes of which nothing is known. -/
def anyScope : String := "<attr>"

/-- The mark in front of the scope of calls that go to the bases of a class. -/
def superMark : String := "<super>."

/-- Whether an expression is a call for the bases of a class. -/
def isSuper : Expr → Bool
  | .call _ (.name _ id _) _ _ => id = "super"
  | _ => false

/-- A dotted name as the unresolved symbol of a call with `n` arguments. -/
def calledAs (dotted : String) (n : Nat) : Symbol :=
  let (scope, name) := Dotted.cut dotted
  Symbol.callWith scope name n

/-- A dotted name as the unresolved symbol of a mention. -/
def mentionedAs (dotted : String) : Symbol :=
  let (scope, name) := Dotted.cut dotted
  Symbol.mention scope name

/-- The unresolved symbol that a call with `argc` arguments refers to. -/
def callee? (p : Place) (n : Names) (function : Expr) (argc : Nat) : Option Symbol :=
  match function with
  | .name _ id _ =>
    match resolve? p n id with
    | some target => some (calledAs target argc)
    | none => if isBuiltin id then some (Symbol.callWith "builtins" id argc) else none
  | .member _ value field _ =>
    match isSuper value, p.classes.head? with
    | true, some c => some (Symbol.callWith (superMark ++ c.name) field argc)
    | _, _ =>
      match resolveAttribute? p n value field with
      | some target => some (calledAs target argc)
      | none => some (Symbol.callWith anyScope field argc)
  | _ => none

end Deadwood.Collect
