import Deadwood.File.Host
import Deadwood.Manifest

/-!
# The file of a manifest

A manifest that cannot be used is reported and counts as empty. A failure of the file system to
write or to delete one is reported and is no failure of the run.

* `load`, `save` and `clean` read, write and delete the file.
-/

namespace Deadwood.Manifest

variable {m : Type → Type} [Monad m] (host : Host m)
  (json : String → Library.Answer String Value)

/-- The manifest in a file; there is none if the file is missing. -/
def read (path : Path) : m (Except Fault Manifest) := do
  match ← host.read path with
  | .ok content => return ofBytes json path content
  | .error ⟨.missing, _⟩ => return .ok ∅
  | .error e => return .error (.bad (.unreadable path e.message))

/-- The manifest in a file, empty if it cannot be used. -/
def load (path : Path) : ExceptT Breakdown m Manifest := do
  match ← (read host json path : m (Except Fault Manifest)) with
  | .ok manifest => return manifest
  | .error (.broken b) => throw b
  | .error (.bad e) =>
    host.say ("⚠️  manifest 无法使用，已重置: " ++ e.message)
    return ∅

/-- Writes a manifest; says whether that worked. -/
def save (path : Path) (manifest : Manifest) : ExceptT Unencodable m Bool := do
  match ← (host.save path (toText manifest) : m (Except WriteError Unit)) with
  | .ok _ => return true
  | .error .unencodable => throw {}
  | .error (.file e) =>
    host.say ("⚠️  无法写入 manifest " ++ path.text ++ ": " ++ e.message)
    return false

/-- Deletes the file of a manifest; says whether there was one. -/
def clean (path : Path) : m Bool := do
  match ← host.remove path with
  | .ok _ => return true
  | .error ⟨.missing, _⟩ => return false
  | .error e =>
    host.say ("⚠️  无法删除 manifest " ++ path.text ++ ": " ++ e.message)
    return false

end Deadwood.Manifest
