import Deadwood.File.Path
import Deadwood.Table
import Deadwood.Text.Quoted

/-!
# A file system

A `Disk` holds files and directories, by the parts of their paths from the root. The working
directory and those around it are always there. The operations fail as those of an operating system
do.

* `FileError` is a failure with the path it concerns, `FileError.message` its text.
* `locate` follows a path, `node?` looks it up, `read`, `write`, `makeDirectories`, `remove` work on
  files.
* `filesBelow` lists the files in a directory and below.
-/

namespace Deadwood

/-- Why an operation on files fails. -/
inductive FileFault where
  | missing
  | notADirectory
  | isADirectory
  | alreadyThere
  /-- Another reason, with its number and text. -/
  | other (number : Nat) (text : String)
deriving Repr, DecidableEq, Inhabited

namespace FileFault

/-- The number of a fault. -/
def number : FileFault → Nat
  | .missing => 2
  | .notADirectory => 20
  | .isADirectory => 21
  | .alreadyThere => 17
  | .other n _ => n

/-- The fault in words. -/
def text : FileFault → String
  | .missing => "No such file or directory"
  | .notADirectory => "Not a directory"
  | .isADirectory => "Is a directory"
  | .alreadyThere => "File exists"
  | .other _ s => s

end FileFault

/-- A fault and the path that it concerns. -/
structure FileError where
  fault : FileFault
  path : Path
deriving Repr, DecidableEq, Inhabited

/-- The error in words. -/
def FileError.message (e : FileError) : String :=
  "[Errno " ++ toString e.fault.number ++ "] " ++ e.fault.text ++ ": " ++ Text.quoted e.path.text

/-- What a disk holds at a path. -/
inductive DiskNode where
  | file (content : List UInt8)
  | directory
deriving Repr, DecidableEq, Inhabited

/-- Files and directories, by the parts of their paths from the root. -/
structure Disk where
  /-- The working directory. -/
  home : List String := []
  nodes : Table (List String) DiskNode := ∅
deriving Repr, DecidableEq, Inhabited

namespace Disk

/-- The working directory as a text. -/
def directory (d : Disk) : String := "/" ++ "/".intercalate d.home

/-- What stands at a place; the working directory and those around it are always there. -/
def at? (d : Disk) (place : List String) : Option DiskNode :=
  if place.isPrefixOf d.home then some .directory else d.nodes.find? place

/-- Follows the parts of a path from a place. All places on the way must be directories. -/
def follow (d : Disk) : List String → List String → Except FileFault (List String)
  | place, [] => .ok place
  | place, part :: rest =>
    match d.at? place with
    | none => .error .missing
    | some (.file _) => .error .notADirectory
    | some .directory => d.follow (Path.step place part) rest

/-- The place that a path leads to. -/
def locate (d : Disk) (p : Path) : Except FileFault (List String) :=
  d.follow (if p.isAbsolute then [] else d.home) p.parts

/-- What a path leads to. -/
def node? (d : Disk) (p : Path) : Option DiskNode :=
  match d.locate p with
  | .ok place => d.at? place
  | .error _ => none

/-- Whether a path leads to a directory. -/
def isDirectory (d : Disk) (p : Path) : Bool := d.node? p = some .directory

/-- The content of a file. -/
def read (d : Disk) (p : Path) : Except FileError (List UInt8) :=
  match d.locate p with
  | .error e => .error ⟨e, p⟩
  | .ok place =>
    match d.at? place with
    | some (.file content) => .ok content
    | some .directory => .error ⟨.isADirectory, p⟩
    | none => .error ⟨.missing, p⟩

/-- Writes a file, which may exist; its directory must. -/
def write (d : Disk) (p : Path) (content : List UInt8) : Except FileError Disk :=
  match d.locate p with
  | .error e => .error ⟨e, p⟩
  | .ok place =>
    match d.at? place with
    | some .directory => .error ⟨.isADirectory, p⟩
    | _ => .ok { d with nodes := d.nodes.insert place (.file content) }

/-- Removes a file. -/
def remove (d : Disk) (p : Path) : Except FileError Disk :=
  match d.locate p with
  | .error e => .error ⟨e, p⟩
  | .ok place =>
    match d.at? place with
    | some (.file _) => .ok { d with nodes := d.nodes.erase place }
    | some .directory => .error ⟨.isADirectory, p⟩
    | none => .error ⟨.missing, p⟩

/-- Makes one directory; it is no failure if it is there. -/
def makeDirectory (d : Disk) (p : Path) : Except FileError Disk :=
  match d.locate p with
  | .error e => .error ⟨e, p⟩
  | .ok place =>
    match d.at? place with
    | some .directory => .ok d
    | some (.file _) => .error ⟨.alreadyThere, p⟩
    | none => .ok { d with nodes := d.nodes.insert place .directory }

/-- Makes a directory and, where they are missing, the first `n` of those around it. -/
def makeDirectoriesFrom : Nat → Disk → Path → Except FileError Disk
  | 0, d, p => d.makeDirectory p
  | n + 1, d, p =>
    match d.makeDirectory p with
    | .error ⟨.missing, q⟩ =>
      if p.parts.isEmpty then .error ⟨.missing, q⟩
      else makeDirectoriesFrom n d p.parent >>= fun d => d.makeDirectory p
    | result => result

/-- Makes a directory and those around it where they are missing. -/
def makeDirectories (d : Disk) (p : Path) : Except FileError Disk :=
  makeDirectoriesFrom p.parts.length d p

/-- Turns the drawing in a file into a picture beside it; none if that fails. -/
def picture (d : Disk) (paint : String → List UInt8 → Option (List UInt8)) (p : Path)
    (format : String) :
    Option Disk := do
  let drawing ← (d.read p).toOption
  let content ← paint format drawing
  (d.write (p.withEnding format) content).toOption

/-- The files below a place, by the parts of their paths from there. -/
def filesAt (d : Disk) (place : List String) : List (List String) :=
  d.nodes.entries.filterMap fun
    | (q, .file _) => if place.isPrefixOf q then some (q.drop place.length) else none
    | (_, .directory) => none

/-- The files in a directory and below, by the parts of their paths from there. -/
def filesBelow (d : Disk) (p : Path) : List (List String) :=
  match d.locate p with
  | .ok place => d.filesAt place
  | .error _ => []

end Disk

end Deadwood
