import Deadwood.Config.Schema
import Deadwood.Regex.Pattern
import Deadwood.Source.Module
import Deadwood.Toml
import Deadwood.Value.Reader
import Deadwood.Yaml

/-!
# Libraries

A run leaves the reading of sources, documents and patterns and the check of options to libraries. A
`Library` offers these operations; nothing is assumed of what they answer.

* `Library` is the list of operations.
* `Library.standard` reads what this program reads by itself.
-/

namespace Deadwood

/-- What a run takes from libraries. -/
structure Library where
  /-- The statements of a source file. -/
  statements : List UInt8 → Except Source.Fault (List Source.Stmt)
  /-- The value of a JSON document. -/
  json : String → Library.Answer String Value
  /-- The value of a YAML document. -/
  yaml : List Char → Library.Answer String Setting
  /-- The table of a TOML document. -/
  toml : List Char → Library.Answer String Toml.Fields
  /-- The pattern that a text writes. -/
  pattern : String → Library.Answer String Pattern
  /-- The options among the fields of an object. -/
  options : List (Setting × Setting) → Library.Answer (List Config.Problem) Options

namespace Library

/-- Reads a JSON document. -/
def readJson (text : String) : Library.Answer String Value :=
  match Value.ofJson text with
  | .ok v => .ok v
  | .error .malformed => .error (.refused "not JSON")
  | .error .tooLong => .error (.broken "an integer has too many digits")

/-- Reads a YAML document. -/
def readYaml (text : List Char) : Library.Answer String Setting :=
  match Yaml.read text with
  | .ok v => .ok v
  | .error .malformed => .error (.refused "not a well-formed document")
  | .error (.badValue b) => .error (.broken b.text)

/-- Reads a TOML document. -/
def readToml (text : List Char) : Library.Answer String Toml.Fields :=
  match Toml.read text with
  | .ok table => .ok table
  | .error .malformed => .error (.refused "not a well-formed document")
  | .error .tooLong => .error (.broken "an integer has too many digits")

/-- Reads a pattern. -/
def readPattern (source : String) : Library.Answer String Pattern :=
  match Pattern.compile source with
  | .ok p => .ok p
  | .error (.malformed fault position) =>
    .error (.refused ((Regex.Error.malformed fault position).message source))
  | .error e => .error (.broken (e.message source))

/-- Checks the fields of an object. -/
def checkOptions (fields : List (Setting × Setting)) :
    Library.Answer (List Config.Problem) Options :=
  match Options.ofFields fields with
  | .ok o => .ok o
  | .error ps => .error (.refused ps)

/-- The libraries of this program. -/
def standard : Library where
  statements := Source.read
  json := readJson
  yaml := readYaml
  toml := readToml
  pattern := readPattern
  options := checkOptions

end Library

end Deadwood
