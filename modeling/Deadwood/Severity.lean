import Deadwood.Setting
import Deadwood.Text.Case
import Deadwood.Text.Cut

/-!
# Severities

Findings are reported with one of four severities. Two of them have a short name, and the case and
the white space around a name do not count.

* `Severity.text` names a severity, `Severity.ofText?` reads a name.
* `Severity.ofSetting?` reads what a configuration gives.
-/

namespace Deadwood

/-- How serious a finding is. -/
inductive Severity where
  | hint
  | information
  | warning
  | error
deriving Repr, DecidableEq, Inhabited

namespace Severity

/-- All severities, the mildest first. -/
def all : List Severity := [.hint, .information, .warning, .error]

/-- The name of a severity. -/
def text : Severity → String
  | .hint => "hint"
  | .information => "information"
  | .warning => "warning"
  | .error => "error"

/-- The severity with a name or a short name. -/
def ofText? (s : String) : Option Severity :=
  match Text.lower (Text.trim s) with
  | "hint" => some .hint
  | "info" | "information" => some .information
  | "warn" | "warning" => some .warning
  | "error" => some .error
  | _ => none

/-- The severity that a setting names. -/
def ofSetting? (v : Setting) : Option Severity := ofText? v.text

end Severity

end Deadwood
