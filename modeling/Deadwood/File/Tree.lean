/-!
# Trees of files

What stands in a directory is a list of entries, each a file or a directory with entries of its own.

* `FileTree` is one entry.
* `FileTree.ofFiles` arranges files that are given by their paths.
-/

namespace Deadwood

/-- A file, or a directory with its entries in the order in which they are listed. -/
inductive FileTree where
  | file
  | directory (entries : List (String × FileTree))
deriving Repr, Inhabited

namespace FileTree

/-- Whether the entry is a file. -/
def isFile : FileTree → Bool
  | .file => true
  | .directory _ => false

/-- Changes the entries of the directory `name` among some entries; it is made if it is missing. -/
def within (name : String) (change : List (String × FileTree) → List (String × FileTree)) :
    List (String × FileTree) → List (String × FileTree)
  | [] => [(name, .directory (change []))]
  | (other, .file) :: rest => (other, .file) :: within name change rest
  | (other, .directory inner) :: rest =>
    if other = name then (name, .directory (change inner)) :: rest
    else (other, .directory inner) :: within name change rest

/-- Adds a file, given by the parts of its path, to some entries. -/
def addFile : List String → List (String × FileTree) → List (String × FileTree)
  | [], entries => entries
  | [name], entries => entries ++ [(name, .file)]
  | outer :: name :: rest, entries => within outer (addFile (name :: rest)) entries

/-- The entries of a directory with the given files in it and below. -/
def ofFiles (files : List (List String)) : List (String × FileTree) :=
  files.foldl (fun entries file => addFile file entries) []

end FileTree

end Deadwood
