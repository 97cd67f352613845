import Deadwood.Builtin
import Deadwood.Collect.Scope
import Deadwood.Project.Exports
import Deadwood.Search

/-!
# The index of a project

The index knows the definitions of a project by name, the bases of its classes, its modules, and the
aliases of its modules. With it a name that a unit uses is resolved to the definitions that it may
refer to.

* `resolveAlias` follows aliases.
* `ancestors`, `descendants`, `externalBases` walk over the classes.
* `findMethod`, `overriders` look up methods.
* `resolve` gives the symbols that an unresolved callee stands for.
-/

namespace Deadwood.Project

/-- The definitions of a project by name. -/
structure Index where
  /-- The symbols of functions and methods, by scope and name. -/
  members : Table (String × String) (List Symbol) := ∅
  /-- The symbols of methods, by name. -/
  methods : Table String (List Symbol) := ∅
  /-- The classes and the dotted names of their bases. -/
  classes : Table String (List String) := ∅
  modules : List String := []
  /-- What the imported names of modules stand for. -/
  aliases : Table String String := ∅
deriving Repr, DecidableEq, Inhabited

namespace Index

/-! ## Aliases -/

/-- A dotted name with its beginning, the longest that is an alias, replaced. -/
def replaceHead (aliases : Table String String) (dotted : String) : String :=
  let parts := Dotted.segments dotted
  let replaced? (k : Nat) : Option String :=
    let head := Dotted.join (parts.take (parts.length - k))
    (aliases.find? head).bind fun target =>
      if target ≠ "" && target ≠ head then
        let tail := Dotted.join (parts.drop (parts.length - k))
        some (if tail = "" then target else Dotted.below target tail)
      else none
  ((List.range parts.length).findSome? replaced?).getD dotted

/-- How many aliases are followed in a row. -/
def aliasLimit : Nat := 10

/-- Follows at most `n` aliases. -/
def followAliases (aliases : Table String String) : Nat → String → String
  | 0, dotted => dotted
  | n + 1, dotted => followAliases aliases n (replaceHead aliases dotted)

/-- The dotted name that a name stands for after its aliases are followed. -/
def resolveAlias (ix : Index) (dotted : String) : String :=
  followAliases ix.aliases aliasLimit dotted

/-! ## Building -/

/-- Adds a symbol to a list of the table. -/
def note {κ : Type} [DecidableEq κ] (t : Table κ (List Symbol)) (k : κ) (s : Symbol) :
    Table κ (List Symbol) :=
  t.update k fun old => old.getD [] ++ [s]

/-- Adds a definition. -/
def add (ix : Index) (d : Symbol × Meta) : Index :=
  let (s, info) := d
  if s.name = Symbol.bodyName then
    { ix with
      modules := if ix.modules.contains s.scope then ix.modules else ix.modules ++ [s.scope]
      aliases := info.aliases.entries.foldl
        (fun t a => t.insert (Dotted.below s.scope a.1) a.2) ix.aliases }
  else if s.name = Symbol.recordName then
    if s.arity = 0 then { ix with classes := ix.classes.insert s.scope info.implements } else ix
  else
    { ix with
      members := note ix.members (s.scope, s.name) s
      methods := if info.kind = "method" then note ix.methods s.name s else ix.methods }

/-- Puts the symbols of every name in order and resolves the bases of classes. -/
def finish (ix : Index) : Index :=
  { ix with
    members := ix.members.mapValues Symbol.sort
    methods := ix.methods.mapValues Symbol.sort
    classes := ix.classes.mapValues fun bases => bases.map ix.resolveAlias }

/-- The index of the units of a project. -/
def ofUnits (units : Units) : Index := ((definitionsOf units []).foldl add {}).finish

/-! ## Classes -/

/-- The bases of a class, in order. -/
def bases (ix : Index) (c : String) : List String := ix.classes.findD c []

/-- The bases of a class that are classes of the project. -/
def innerBases (ix : Index) (c : String) : List String := (ix.bases c).filter ix.classes.contains

/-- A class and the classes of the project that it is built on, the nearer ones first. -/
def ancestors (ix : Index) (c : String) : List String :=
  (Search.visit ix.classes.keys ix.innerBases (ix.innerBases c) [c]).reverse

/-- The classes that have a class of the project as a base. -/
def children (ix : Index) (c : String) : List String :=
  ix.classes.keys.filter fun d => (ix.innerBases d).contains c

/-- The classes that are built on a class, in order. -/
def descendants (ix : Index) (c : String) : List String :=
  (Search.sweep ix.classes.keys ix.children (ix.children c) []).mergeSort fun a b => a ≤ b

/-- The bases of a class and its ancestors that are not classes of the project. -/
def externalBases (ix : Index) (c : String) : List String :=
  (((ix.ancestors c).flatMap ix.bases).filter (!ix.classes.contains ·)).eraseDups

/-! ## Methods -/

/-- The symbols with a scope and name. -/
def membersOf (ix : Index) (scope name : String) : List Symbol := ix.members.findD (scope, name) []

/-- The methods of the first of some classes that has any with the name. -/
def firstMembers (ix : Index) (name : String) (classes : List String) : List Symbol :=
  (classes.findSome? fun c =>
    let found := ix.membersOf c name
    if found.isEmpty then none else some found).getD []

/-- The methods that a class has under a name, its own or those of its nearest ancestor. -/
def findMethod (ix : Index) (c name : String) : List Symbol := ix.firstMembers name (ix.ancestors c)

/-- The methods that a class inherits under a name. -/
def findInherited (ix : Index) (c name : String) : List Symbol :=
  ix.firstMembers name ((ix.ancestors c).drop 1)

/-- The methods with a name in the classes that are built on a class. -/
def overriders (ix : Index) (c name : String) : List Symbol :=
  (ix.descendants c).flatMap (ix.membersOf · name)

/-! ## Callees -/

/-- Whether a dotted name lies in a module of the project. -/
def isInside (ix : Index) (dotted : String) : Bool :=
  (Dotted.enclosing dotted).any ix.modules.contains

/-- The number of arguments of the call that an unresolved symbol stands for. -/
def argumentCount (arity : Int) : Int := max 0 (-2 - arity)

/-- The symbols that a dotted name refers to: the definitions with that name and what may replace
them in other classes, a class, or, for a call of something outside the project, an external
symbol. -/
def resolveDotted (ix : Index) (dotted : String) (arity : Int) : List Symbol :=
  let (scope, name) := Dotted.cut dotted
  let found := ix.membersOf scope name
  if !found.isEmpty then
    found ++ if ix.classes.contains scope then ix.overriders scope name else []
  else if ix.classes.contains dotted then [Symbol.classOf dotted]
  else if ix.classes.contains scope then ix.findMethod scope name ++ ix.overriders scope name
  else if ix.isInside dotted || arity = -1 then []
  else [⟨if scope = "" then "builtins" else scope, name, argumentCount arity⟩]

/-- The symbols that a callee may stand for. -/
def resolve (ix : Index) (callee : Symbol) : List Symbol :=
  if callee.arity ≥ 0 then [callee]
  else if Text.startsWith callee.scope Collect.superMark then
    ix.findInherited (Text.drop callee.scope Collect.superMark.length) callee.name
  else if callee.scope = Collect.anyScope then
    if callee.arity ≤ -2 then ix.methods.findD callee.name [] else []
  else
    let dotted := if callee.scope = "" then callee.name else Dotted.below callee.scope callee.name
    ix.resolveDotted (ix.resolveAlias dotted) callee.arity

end Index

end Deadwood.Project
