import Deadwood.File.Path
import Deadwood.Finding

/-!
# Findings as they are shown

Paths are shown relative to the working directory, with steps up carried out. A path that leads out
of it is shown as it is.

* `displayPath` is the path that is shown for a file.
* `Finding.diagnostic` is the text of a finding on the console, `Finding.shown` its object in a
  report.
-/

namespace Deadwood.Report

/-- The path that is shown for a file, given the working directory. -/
def displayPath (directory file : String) : String :=
  let home := Path.withoutUp (Path.ofText directory).parts
  let place := Path.withoutUp ((Path.ofText directory).append (Path.ofText file)).parts
  if file ≠ "" && home.isPrefixOf place then
    let parts := place.drop home.length
    let shown := if parts.isEmpty then "." else "/".intercalate parts
    if Text.startsWith shown ".." then file else shown
  else file

end Deadwood.Report

namespace Deadwood.Finding

/-- Whether a finding is shown on the console: the initializer of a reported class is not. -/
def isPrintable (f : Finding) : Bool := !(f.symbol.name = Symbol.recordName && f.symbol.arity = 1)

/-- A finding on the console. -/
def diagnostic (directory : String) (f : Finding) : String :=
  f.severity ++ ": " ++ f.message ++ "\n    " ++
    Report.displayPath directory f.location.file ++ ":" ++
    toString f.location.line

/-- A finding with the path that is shown. -/
def shown (directory : String) (f : Finding) : Finding :=
  { f with location := { f.location with file := Report.displayPath directory f.location.file } }

end Deadwood.Finding
