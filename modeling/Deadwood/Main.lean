import Deadwood.Calendar
import Deadwood.Command
import Std.Time.DateTime.Timestamp

/-!
# The program

The command line program works on the files of the operating system. Reports are printed to the
standard output, mistakes on the command line and failures to the standard error.
-/

namespace Deadwood.Program

/-- The fault that an error of the operating system tells. -/
def faultOf : IO.Error → FileFault
  | .noFileOrDirectory _ _ _ => .missing
  | .alreadyExists _ _ _ => .alreadyThere
  | .inappropriateType _ code text =>
    if code = 20 then .notADirectory else if code = 21 then .isADirectory
      else .other code.toNat text
  | .permissionDenied _ code text => .other code.toNat text
  | .otherError code text => .other code.toNat text
  | e => .other 5 (toString e)

/-- Does something to a path, giving its failure as a value. -/
def attempt {α : Type} (p : Path) (action : IO α) : IO (Except FileError α) := do
  try
    return .ok (← action)
  catch e => return .error ⟨faultOf e, p⟩

/-- The files in a directory and below, by the parts of their paths from there. -/
partial def filesBelow (p : Path) : IO (List (List String)) := do
  let mut files := []
  for entry in ← ((← IO.currentDir) / p.text).readDir do
    if (← entry.path.symlinkMetadata).type matches .dir then
      let inner ← filesBelow (p.child entry.fileName)
      files := inner.map (entry.fileName :: ·) ++ files
    else files := [entry.fileName] :: files
  return files

/-- What kind of thing a path leads to. -/
def kind? (p : Path) : IO (Option FileKind) := do
  let place := (← IO.currentDir) / p.text
  if ← place.isDir then return some .directory
  else if ← place.pathExists then return some .file
  else return none

/-- The time, as a report shows it. -/
def now : IO String := do
  let t ← Std.Time.Timestamp.now
  let nanos := t.toNanosecondsSinceUnixEpoch.val.toNat
  return Calendar.stamp (nanos / Nat.pow 10 9) (nanos % Nat.pow 10 9 / 1000)

/-- The operating system. -/
def host : Host IO where
  kind?
  filesBelow
  read p := attempt p do return (← IO.FS.readBinFile p.text).toList
  write p content := attempt p (IO.FS.writeBinFile p.text ⟨content.toArray⟩)
  makeDirectories p := attempt p (IO.FS.createDirAll p.text)
  remove p := attempt p (IO.FS.removeFile p.text)
  draw _ _ := return .noProgram
  print := IO.print
  openPage := IO.eprintln
  now
  directory := do return (← IO.currentDir).toString

end Deadwood.Program

open Deadwood in
/-- Does what the command line asks for. -/
def main (args : List String) : IO UInt32 := do
  match Command.Invocation.ofWords args with
  | .error e =>
    IO.eprintln (e.usage ++ "\n" ++ e.line)
    return 2
  | .ok invocation =>
    match ← (Command.perform Program.host .standard invocation).run with
    | .ok code => return code
    | .error e =>
      IO.eprintln ("error: " ++ e.message)
      return 1
