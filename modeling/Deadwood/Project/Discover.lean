import Deadwood.Dotted
import Deadwood.File.Path
import Deadwood.File.Tree
import Deadwood.Glob
import Deadwood.Table

/-!
# Finding the sources of a project

The sources are given by paths: a source file stands for itself, a directory for the source files in
it. Patterns say which files of a directory are wanted and which files and subdirectories are not.

* `Listing` is what a path leads to.
* `walk` goes through a directory and those of its subdirectories that are not pruned.
* `filesIn` lists the source files that a path stands for, `moduleName?` names the module of a file.
* `sources` lists the sources of a project in the order of their units, each once.
-/

namespace Deadwood.Project

/-- What a path leads to. -/
inductive Listing where
  | missing
  | file
  /-- A directory, with its entries in the order in which they are listed. -/
  | directory (entries : List (String × FileTree))
deriving Repr, Inhabited

/-! ## Patterns -/

/-- Whether a path, written with a slash in front or not, or its last name fits one of the
patterns. -/
def fitsAny (path name : String) (patterns : List String) : Bool :=
  patterns.any fun pattern =>
    let g := Glob.ofText pattern
    g.fits path || g.fits name || g.fits ("/" ++ path)

/-- Whether the subdirectory `name` of a directory is left out. -/
def isPruned (unwanted directory : List String) (name : String) : Bool :=
  let path := "/".intercalate (directory ++ [name])
  fitsAny (path ++ "/") name unwanted || fitsAny path name unwanted

/-- Whether the file `name` of a directory is a source that is wanted. -/
def isWanted (wanted unwanted directory : List String) (name : String) : Bool :=
  let path := "/".intercalate (directory ++ [name])
  Text.endsWith name ".py" && !fitsAny path name unwanted &&
    (wanted.isEmpty || fitsAny path name wanted)

/-! ## Files -/

variable (wanted unwanted : List String)

/-- The wanted source files among the entries of a directory, by name. -/
def filesHere (directory : List String) (entries : List (String × FileTree)) : List (List String) :=
  let names := (entries.filter (·.2.isFile)).map (·.1)
  ((names.mergeSort fun a b => a ≤ b).filter (isWanted wanted unwanted directory)).map
    (directory ++ [·])

/-- The files of a directory, followed by those of its subdirectories, by name. -/
def arranged (here : List (List String)) (below : List (String × List (List String))) :
    List (List String) :=
  here ++ (below.mergeSort fun a b => a.1 ≤ b.1).flatMap (·.2)

mutual

/-- The wanted source files in a directory and below, by the parts of their paths, in the order in
which they are visited: those of a directory before those of its subdirectories, and by name
otherwise. -/
def walk (directory : List String) : FileTree → List (List String)
  | .file => []
  | .directory entries =>
    arranged (filesHere wanted unwanted directory entries) (walkBelow directory entries)

/-- The wanted source files of each of the entries that is a directory and not pruned. -/
def walkBelow (directory : List String) :
    List (String × FileTree) → List (String × List (List String))
  | [] => []
  | (name, t) :: rest =>
    if t.isFile || isPruned unwanted directory name then walkBelow directory rest
    else (name, walk (directory ++ [name]) t) :: walkBelow directory rest

end

/-- The source files that a path stands for, in the order in which they are visited. -/
def filesIn (root : Path × Listing) : List Path :=
  match root.2 with
  | .missing => []
  | .file => if root.1.suffix = ".py" then [root.1] else []
  | .directory entries => (walk wanted unwanted [] (.directory entries)).map root.1.descend

/-! ## Modules -/

/-- The name of the module whose file lies below a directory, by the parts of its path from
there. -/
def moduleAt? (parts : List String) : Option String :=
  match parts.getLast? with
  | none => none
  | some last =>
    let named := if last = "__init__.py" then parts.dropLast
      else parts.dropLast ++ [(Path.cutSuffix last).1]
    let name := Dotted.join (named.filter (· ≠ ""))
    if name = "" then none else some name

/-- The name of the module that a file is, seen from a path; the outer level says whether the path
decides. -/
def moduleBelow? (file : Path) (root : Path × Listing) : Option (Option String) :=
  match root.2 with
  | .file => if root.1 = file then some (some file.stem) else none
  | .missing | .directory _ => (file.below? root.1).map moduleAt?

/-- The name of the module that a file is, seen from the first path that contains it. -/
def moduleName? (file : Path) (roots : List (Path × Listing)) : Option String :=
  (roots.findSome? (moduleBelow? file)).join

/-! ## Sources -/

/-- A source file of a project. -/
structure SourceFile where
  /-- The path of the file, which identifies it. -/
  unit : String
  module : String
deriving Repr, DecidableEq, Inhabited

/-- The source files that some paths stand for, as they are found. -/
def found (roots : List (Path × Listing)) (wanted unwanted : List String) : List Path :=
  roots.flatMap (filesIn wanted unwanted)

/-- The sources of a project, in the order of their units. -/
def sources (roots : List (Path × Listing)) (wanted unwanted : List String) : List SourceFile :=
  let named := (found roots wanted unwanted).filterMap fun f =>
    (moduleName? f roots).map fun m => (f.text, m)
  let once : Table String String := named.foldl (fun t f => t.insertNew f.1 f.2) ∅
  (once.entries.mergeSort fun a b => a.1 ≤ b.1).map fun f => ⟨f.1, f.2⟩

end Deadwood.Project
