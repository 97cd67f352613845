import Deadwood.Report.Stats

/-!
# The tree of folders

The findings by path as a tree of folders, for finding one's way in a report. Every folder counts
the findings below it.

* `Tree` is a file with its findings, or a folder; `Forest` holds the entries of a folder in the
  order in which they came.
* `Folder.add` puts a file into a folder. It fails if a file stands where a folder is needed.
* `tree` is the tree of some findings.
-/

namespace Deadwood.Report

/-- A file of the tree. -/
structure Leaf where
  name : String
  path : String
  findings : List Finding
deriving Repr, Inhabited

mutual

/-- A file or a folder with its counts and entries. -/
inductive Tree where
  | file (leaf : Leaf)
  | folder (count : Nat) (bySeverity : Table String Nat) (entries : Forest)

/-- The entries of a folder, by name. -/
inductive Forest where
  | nil
  | cons (name : String) (node : Tree) (rest : Forest)

end

instance : Inhabited Forest := ⟨.nil⟩

instance : Inhabited Tree := ⟨.folder 0 ∅ .nil⟩

namespace Forest

/-- The entry with a name. -/
def find? (name : String) : Forest → Option Tree
  | .nil => none
  | .cons n node rest => if n = name then some node else rest.find? name

/-- Puts an entry in the place of the one with its name, or else at the end. -/
def insert (name : String) (node : Tree) : Forest → Forest
  | .nil => .cons name node .nil
  | .cons n old rest => if n = name then .cons n node rest else .cons n old (rest.insert name node)

end Forest

/-- A folder of the tree. -/
structure Folder where
  count : Nat := 0
  bySeverity : Table String Nat := ∅
  entries : Forest := .nil
deriving Inhabited

namespace Folder

/-- The folder as a tree. -/
def toTree (f : Folder) : Tree := .folder f.count f.bySeverity f.entries

/-- Counts the findings of a file that lies below the folder. -/
def credit (f : Folder) (leaf : Leaf) : Folder :=
  { f with
    count := f.count + leaf.findings.length
    bySeverity := (Report.bySeverity leaf.findings).entries.foldl
      (fun t e => t.update e.1 fun n => n.getD 0 + e.2) f.bySeverity }

/-- Puts a file into the folder that the given names lead to; none if one of them is a file. -/
def add : List String → Leaf → Folder → Option Folder
  | [], leaf, f =>
    let f := f.credit leaf
    some { f with entries := f.entries.insert leaf.name (.file leaf) }
  | name :: names, leaf, f => do
    let f := f.credit leaf
    let inner : Folder ← match f.entries.find? name with
      | none => some {}
      | some (.folder count bySeverity entries) => some ⟨count, bySeverity, entries⟩
      | some (.file _) => none
    let inner ← inner.add names leaf
    return { f with entries := f.entries.insert name inner.toTree }

end Folder

/-- The names of the folders that a path leads through, and the file that it leads to. -/
def place (path : String) (findings : List Finding) : List String × Leaf :=
  let parts := (Path.ofText path).components
  (parts.dropLast, ⟨parts.getLast?.getD path, path, findings⟩)

/-- The tree of some findings; none if the path of a file leads through another file. -/
def tree (directory : String) (findings : List Finding) : Option Folder :=
  ((byPath directory findings).entries.mergeSort fun a b => a.1 ≤ b.1).foldlM
    (fun f s => let (names, leaf) := place s.1 s.2; f.add names leaf) {}

/-! ## As objects -/

/-- A file as an object. -/
def Leaf.toValue (directory : String) (l : Leaf) : Value :=
  .dict [("type", .str "file"), ("name", .str l.name), ("path", .str l.path),
    ("count", .int l.findings.length), ("by_severity", countsValue (bySeverity l.findings)),
    ("issues", .list (l.findings.map fun f => (f.shown directory).toValue))]

/-- A folder as an object, its entries being given. -/
def folderValue (type name : String) (count : Nat) (counts : Table String Nat)
    (entries : List (String × Value)) : Value :=
  .dict [("type", .str type), ("name", .str name), ("count", .int count),
    ("by_severity", countsValue counts), ("children", .dict entries)]

mutual

/-- A tree with a name as an object. -/
def Tree.toValue (directory name : String) : Tree → Value
  | .file leaf => leaf.toValue directory
  | .folder count counts entries =>
    folderValue "folder" name count counts (entries.toFields directory)

/-- The entries of a folder as fields. -/
def Forest.toFields (directory : String) : Forest → List (String × Value)
  | .nil => []
  | .cons name node rest => (name, node.toValue directory name) :: rest.toFields directory

end

/-- The whole tree as an object. -/
def Folder.toValue (directory : String) (f : Folder) : Value :=
  folderValue "root" "Project Root" f.count f.bySeverity (f.entries.toFields directory)

end Deadwood.Report
