import Deadwood.File.Path
import Deadwood.Library

/-!
# Configuration files

A configuration is the only document of a YAML file, or a table of a TOML file: the one for this
tool, if there is a table of tools that has it. The documents are read by libraries.

* `ofYaml` and `ofToml` give the configuration in the content of a file.
* `hasSection` says whether a TOML file has a table for this tool.
-/

namespace Deadwood.Config

variable (lib : Library)

/-- The text of a file. -/
def textOfFile (content : List UInt8) : Except LoadError (List Char) :=
  match Text.ofBytes? content with
  | some text => .ok text.toList
  | none => .error .notText

/-! ## YAML -/

/-- Whether a value says nothing: it is null, false, zero or empty. -/
def isNothing : Setting → Bool
  | .null | .bool false | .int 0 | .str "" | .list [] | .tuple [] | .dict [] => true
  | .float x => x.isZero
  | .foreign f => f.isEmpty
  | _ => false

/-- The configuration in a YAML file. -/
def ofYaml (hasSources : Bool) (path : Path) (content : List UInt8) : Except LoadError Config := do
  let text ← textOfFile content
  let v ← LoadError.answer (.badYaml path.text) (lib.yaml (Source.lineFeeds text))
  if isNothing v then .ok (initial hasSources) else ofSetting lib.options hasSources v

/-! ## TOML -/

/-- The name of the tool. -/
def toolName : String := "callclinic"

/-- Whether a value is the name of the tool. -/
def isToolName : Setting → Bool
  | .str s => s = toolName
  | _ => false

/-- Whether what stands for the table of tools has the name of this tool in it. -/
def namesTool : Setting → Except LoadError Bool
  | .dict fields => .ok (Toml.hasField fields toolName)
  | .list items => .ok (items.any isToolName)
  | .str s => .ok (Text.contains s toolName)
  | _ => .error .toolsNotATable

/-- Whether a table has a table of tools with one for this tool. -/
def hasToolSection (table : Toml.Fields) : Except LoadError Bool :=
  match Setting.field? table "tool" with
  | some tools => namesTool tools
  | none => .ok false

/-- The table for this tool in the table of tools. -/
def toolSection (table : Toml.Fields) : Except LoadError Setting :=
  match Setting.field? table "tool" with
  | some (.dict tools) => .ok ((Setting.field? tools toolName).getD .null)
  | _ => .error .toolsNotATable

/-- The file that describes a project for all its tools. -/
def projectFile : String := "pyproject.toml"

/-- The configuration in a TOML file. -/
def ofToml (hasSources : Bool) (path : Path) (content : List UInt8) : Except LoadError Config := do
  let text ← textOfFile content
  let table ← LoadError.answer (.badToml path.text) (lib.toml text)
  let given ←
    if ← hasToolSection table then toolSection table
    else pure (.dict (if path.name = projectFile then [] else table))
  ofSetting lib.options hasSources given

/-- Whether a TOML file has a table for this tool; one that cannot be read as TOML has none. -/
def hasSection (content : List UInt8) : Except LoadError Bool := do
  match lib.toml (← textOfFile content) with
  | .error (.refused _) => pure false
  | .error (.broken what) => .error (.broken what)
  | .ok table => hasToolSection table

end Deadwood.Config
