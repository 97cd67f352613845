import Deadwood.Config.File
import Deadwood.File.Host
import Deadwood.Text.Case

/-!
# Finding and loading configurations

A configuration is loaded from a file that is named, or else from the first of the usual files that
is there. Without any, the initial configuration holds.

* `find` looks for a file, `loadFile` loads one.
* `load` does either, and says what it found unless it is to be quiet.
-/

namespace Deadwood.Config

/-- The usual names of configuration files, in the order in which they are tried. -/
def fileNames : List String :=
  ["callclinic.yaml", "callclinic.yml", ".callclinic.yaml", ".callclinic.yml", projectFile]

/-- What is printed if no file is found. -/
def initialNotice : List String := [
  "📋 使用默认配置:",
  Text.times 40 "━",
  "  🔎 分析器: private, unused, recursive_only",
  "  🚦 severity: hint",
  "  🙈 ignore: 0 条",
  "",
  "💡 提示:",
  "  • 生成配置: 'callclinic init'",
  "  • 查看配置: 'callclinic show-config'",
  "  • 编辑配置: 修改 callclinic.yaml"]

variable {m : Type → Type} [Monad m] (host : Host m) (lib : Library)

/-- Whether the working directory has a directory for sources. -/
def hasSources : m Bool := host.isDirectory (.ofText "src")

/-- Whether a file that is there counts as a configuration file. -/
def isConfigFile (p : Path) : ExceptT LoadError m Bool := do
  if p.name = projectFile then
    match ← host.read p with
    | .error _ => return false
    | .ok content => hasSection lib content
  else return true

/-- The first of some files that is there and counts. -/
def findFirst : List Path → ExceptT LoadError m (Option Path)
  | [] => return none
  | p :: rest => do
    if ← host.isThere p then
      if ← isConfigFile host lib p then return some p
    findFirst rest

/-- The configuration file of a directory. -/
def find (directory : Path) : ExceptT LoadError m (Option Path) :=
  findFirst host lib (fileNames.map directory.child)

/-- The content of a configuration file. -/
def readFile (p : Path) : ExceptT LoadError m (List UInt8) := do
  match ← host.read p with
  | .ok content => return content
  | .error e => throw (.invalid (.unreadable p.text e.message))

/-- The configuration in a file, whose ending says how it is written. -/
def loadFile (p : Path) : ExceptT LoadError m Config := do
  if !(← host.isThere p) then throw (.invalid (.missingFile p.text))
  let sources ← (hasSources host : m Bool)
  let ending := Text.lower p.suffix
  if ending = ".yaml" || ending = ".yml" then ofYaml lib sources p (← readFile host p)
  else if ending = ".toml" then ofToml lib sources p (← readFile host p)
  else throw (.invalid (.unknownFormat ending))

/-- The configuration in the given file, or in the first of the usual ones. -/
def load (file : Option Path) (quiet : Bool) : ExceptT LoadError m Config := do
  match file with
  | some p => loadFile host lib p
  | none =>
    match ← find host lib {} with
    | some p =>
      if !quiet then host.say ("找到配置文件: " ++ p.text)
      loadFile host lib p
    | none =>
      if !quiet then host.sayAll initialNotice
      return initial (← (hasSources host : m Bool))

end Deadwood.Config
