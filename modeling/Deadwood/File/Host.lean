import Deadwood.File.Disk
import Deadwood.Text.Point

/-!
# The machine around a run

A run reads and writes files, prints, and may show a page. A `Host` offers these operations in any
monad, so that the same run works on the files of the operating system and on a `Machine`, which is
a value.

* `Host` is the list of operations, `Host.writeText` and `Host.save` write texts as files.
* `Machine` is a disk with all that was printed and shown, `Machine.host` its operations.
-/

namespace Deadwood

/-- What kind of thing a path leads to. -/
inductive FileKind where
  | file
  | directory
deriving Repr, DecidableEq, Inhabited

/-- What becomes of a drawing that is to be turned into a picture. -/
inductive Picture where
  | made
  /-- There is no program that does it. -/
  | noProgram
  /-- The program fails. -/
  | failed
deriving Repr, DecidableEq, Inhabited

/-- A text cannot be written as a file: half of a surrogate pair stands in it. -/
structure Unencodable where
deriving Repr, DecidableEq

/-- Why a text is not written as a file. -/
inductive WriteError where
  | file (e : FileError)
  | unencodable
deriving Repr, DecidableEq

/-- What a run may do. -/
structure Host (m : Type → Type) where
  kind? : Path → m (Option FileKind)
  /-- The files in a directory and below, by the parts of their paths from there. -/
  filesBelow : Path → m (List (List String))
  read : Path → m (Except FileError (List UInt8))
  /-- Writes a file, whose directory must exist. -/
  write : Path → List UInt8 → m (Except FileError Unit)
  /-- Makes a directory and those around it where they are missing. -/
  makeDirectories : Path → m (Except FileError Unit)
  remove : Path → m (Except FileError Unit)
  /-- Turns the drawing in a file into a picture in a format, whose name is added to that of the
  file. -/
  draw : Path → String → m Picture
  print : String → m Unit
  /-- Shows the page at an address. -/
  openPage : String → m Unit
  /-- The time. -/
  now : m String
  /-- The working directory. -/
  directory : m String

namespace Host

variable {m : Type → Type} [Monad m] (host : Host m)

/-- Prints a line. -/
def say (line : String) : m Unit := host.print (line ++ "\n")

/-- Prints some lines. -/
def sayAll : List String → m Unit
  | [] => pure ()
  | line :: rest => do
    host.say line
    sayAll rest

/-- Whether a path leads to something. -/
def isThere (p : Path) : m Bool := do return (← host.kind? p).isSome

/-- Whether a path leads to a directory. -/
def isDirectory (p : Path) : m Bool := do return (← host.kind? p) = some .directory

/-- Writes a text as a file, whose directory must exist. The file is opened, and thereby emptied,
before the text is encoded. -/
def writeText (p : Path) (text : String) : m (Except WriteError Unit) := do
  match ← host.write p ((Text.toBytes? text).getD []) with
  | .error e => return .error (.file e)
  | .ok _ => return if (Text.toBytes? text).isSome then .ok () else .error .unencodable

/-- Writes a text as a file and makes its directory. -/
def save (p : Path) (text : String) : m (Except WriteError Unit) := do
  match ← host.makeDirectories p.parent with
  | .error e => return .error (.file e)
  | .ok _ => host.writeText p text

end Host

/-- A disk with what was printed and shown. -/
structure Machine where
  disk : Disk := {}
  printed : String := ""
  /-- The addresses of the pages shown, in order. -/
  pages : List String := []
  clock : String := ""
  /-- The program that turns drawings into pictures, given the format and the drawing; it may
  fail. -/
  painter : Option (String → List UInt8 → Option (List UInt8)) := none
deriving Inhabited

namespace Machine

/-- Changes the disk, if that does not fail. -/
def change (f : Disk → Except FileError Disk) : StateM Machine (Except FileError Unit) := do
  match f (← get).disk with
  | .ok disk =>
    modify fun m => { m with disk }
    return .ok ()
  | .error e => return .error e

/-- Turns the drawing in a file into a picture. -/
def draw (p : Path) (format : String) : StateM Machine Picture := do
  match (← get).painter with
  | none => return .noProgram
  | some paint =>
    match (← get).disk.picture paint p format with
    | none => return .failed
    | some disk =>
      modify fun m => { m with disk }
      return .made

/-- The operations on a machine. -/
def host : Host (StateM Machine) where
  kind? p := do
    return ((← get).disk.node? p).map fun
      | .file _ => .file
      | .directory => .directory
  filesBelow p := do return (← get).disk.filesBelow p
  read p := do return (← get).disk.read p
  write p content := change (·.write p content)
  makeDirectories p := change (·.makeDirectories p)
  remove p := change (·.remove p)
  draw
  print s := modify fun m => { m with printed := m.printed ++ s }
  openPage address := modify fun m => { m with pages := m.pages ++ [address] }
  now := do return (← get).clock
  directory := do return (← get).disk.directory

end Machine

end Deadwood
