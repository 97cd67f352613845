import Deadwood.Symbol
import Deadwood.Table
import Deadwood.Value

/-!
# Facts about source code

A fact is what one source unit tells about the project: that a symbol is defined there, with its
`Meta`, or that one symbol calls another at some place.
-/

namespace Deadwood

/-- A place in a source file. -/
structure Location where
  file : String := ""
  line : Int := 0
deriving Repr, DecidableEq, Inhabited

namespace Location

/-- The order of places: by file, then line. -/
def cmp (a b : Location) : Ordering := (compare a.file b.file).then (compare a.line b.line)

/-- Whether `a` stands before `b` or is the same place. -/
def le (a b : Location) : Bool := (cmp a b).isLE

/-- Whether `a` stands before `b`. -/
def before (a b : Location) : Bool := cmp a b == .lt

end Location

/-- What is known about a definition. -/
structure Meta where
  /-- `public` or `private`. -/
  visibility : String := "public"
  file : String := ""
  line : Int := 0
  /-- The first line of the documentation; null if there is none, false if it is hidden. -/
  doc : Value := .null
  /-- Whether the definition is part of the project's public interface. -/
  «export» : Bool := false
  /-- Whether the definition exists without being written in the source. -/
  generated : Bool := false
  /-- `function`, `method`, `class` or `module`. -/
  kind : String := "function"
  decorators : List String := []
  /-- The classes whose methods this one replaces, or the bases of a class. -/
  implements : List String := []
  /-- For a module: the dotted names that it offers as its own. -/
  reexports : List String := []
  /-- For a module: its imported names and the dotted names they stand for. -/
  aliases : Table String String := ∅
deriving Repr, BEq, Inhabited

namespace Meta

/-- Whether the definition is visible outside its scope. -/
def isPublic (m : Meta) : Bool := m.visibility = "public"

/-- Where the definition stands. -/
def location (m : Meta) : Location := ⟨m.file, m.line⟩

end Meta

/-- One statement about the project. -/
inductive Fact where
  | definition (symbol : Symbol) (info : Meta)
  | call (caller callee : Symbol) (site : Location)
deriving Repr, BEq, Inhabited

namespace Fact

/-- The symbol that a definition introduces. -/
def defined? : Fact → Option Symbol
  | .definition s _ => some s
  | .call .. => none

/-- The definitions among facts, in order. -/
def definitions (facts : List Fact) : List (Symbol × Meta) :=
  facts.filterMap fun
    | .definition s m => some (s, m)
    | .call .. => none

end Fact

end Deadwood
