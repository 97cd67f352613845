import Deadwood.Text.Cut

/-!
# Paths

A path is its parts and what it starts from: nothing, the root, or two slashes. Reading a path drops
empty parts and those that are a single dot; parts that go up are kept.

* `Path.ofText` and `Path.text` convert.
* `name`, `stem`, `suffix`, `parent`, `append`, `descend`, `below?` take paths apart and put them
  together.
* `step` goes from a place to the next, `withoutUp` carries out the steps up in a path from the
  root.
-/

namespace Deadwood

/-- A path in a file system. -/
structure Path where
  /-- Where the path starts: empty for a relative path, else one or two slashes. -/
  root : String := ""
  parts : List String := []
deriving Repr, DecidableEq, Inhabited

namespace Path

/-- The slashes at the front of a text that count: exactly two are different from any other
number. -/
def rootOf (s : String) : String :=
  match (s.toList.takeWhile (· = '/')).length with
  | 0 => ""
  | 2 => "//"
  | _ => "/"

/-- The path that a text writes. -/
def ofText (s : String) : Path :=
  ⟨rootOf s, (Text.splitOn '/' s).filter fun part => part ≠ "" && part ≠ "."⟩

/-- The text of a path. -/
def text (p : Path) : String :=
  if p.root = "" && p.parts.isEmpty then "." else p.root ++ "/".intercalate p.parts

/-- Whether the path starts from the root. -/
def isAbsolute (p : Path) : Bool := p.root ≠ ""

/-- The last part, empty if there is none. -/
def name (p : Path) : String := p.parts.getLast?.getD ""

/-- The parts of a name before and from its last dot, if it has a dot with text on both sides. -/
def cutSuffix (name : String) : String × String :=
  match Text.cutLast '.' name with
  | some (before, after) => if before ≠ "" && after ≠ "" then (before, "." ++ after) else (name, "")
  | none => (name, "")

/-- The ending of the last part, with its dot. -/
def suffix (p : Path) : String := (cutSuffix p.name).2

/-- The last part without its ending. -/
def stem (p : Path) : String := (cutSuffix p.name).1

/-- The path without its last part. -/
def parent (p : Path) : Path := { p with parts := p.parts.dropLast }

/-- The path of something inside a directory; an absolute path stands for itself. -/
def append (p q : Path) : Path := if q.isAbsolute then q else { p with parts := p.parts ++ q.parts }

/-- The path of an entry of a directory. -/
def child (p : Path) (entry : String) : Path := { p with parts := p.parts ++ [entry] }

/-- The path of something below a directory, given by the parts of its path from there. -/
def descend (p : Path) (parts : List String) : Path := { p with parts := p.parts ++ parts }

/-- The path with an ending added to its last part. -/
def withEnding (p : Path) (ending : String) : Path := p.parent.child (p.name ++ "." ++ ending)

/-- The place that a part of a path leads to from a place, which is given by its parts from the
root; the root lies in itself. -/
def step (place : List String) (part : String) : List String :=
  if part = ".." then place.dropLast else place ++ [part]

/-- The parts of a path from the root with the steps up carried out. -/
def withoutUp (parts : List String) : List String := parts.foldl step []

/-- All parts, the root included as the first one. -/
def components (p : Path) : List String := (if p.root = "" then [] else [p.root]) ++ p.parts

/-- The parts of `p` below the directory `base`. -/
def below? (p base : Path) : Option (List String) :=
  if p.root = base.root && base.parts.isPrefixOf p.parts then some (p.parts.drop base.parts.length)
  else none

end Path

end Deadwood
