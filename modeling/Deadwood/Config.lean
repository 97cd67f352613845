import Deadwood.Library.Failure
import Deadwood.Severity

/-!
# Configurations

A configuration says what is analysed, which checks run, what is left out and what is written.

* `Config.initial` is the configuration that holds where nothing else is said.
* `Config.Error` is what can be wrong with a configuration, `Config.Error.message` its text;
  `isShown` says whether there is one. `Config.LoadError` is all that may happen instead of a
  configuration.
* `Overrides` are options that take precedence over a configuration, `Config.override` applies them;
  `Options` are those that were checked.
-/

namespace Deadwood

/-- Where a manifest is kept unless a configuration says otherwise. -/
def Config.initialManifest : String := ".callclinic/manifest.json"

/-- How a project is analysed. -/
structure Config where
  /-- The directories and files to analyse. -/
  paths : List String
  /-- Patterns of the files that are wanted. -/
  wanted : List String := ["**/*.py"]
  /-- Patterns of the files and directories that are not wanted. -/
  unwanted : List String := ["**/tests/**", "**/test_*.py", "**/*_test.py", "**/conftest.py",
    "**/.venv/**", "**/venv/**", "**/__pycache__/**", "**/build/**", "**/dist/**"]
  checks : List String := ["private", "unused", "recursive_only"]
  /-- What is not reported and counts as used. -/
  ignore : List Setting := []
  severity : Severity := .hint
  /-- Whether findings that are warnings make a run fail. -/
  warningsAsErrors : Bool := false
  /-- The file that keeps facts from run to run; none if empty. -/
  manifest : String := Config.initialManifest
  /-- The directory of the reports. -/
  output : String := "callclinic_results"
  htmlReport : Bool := false
  /-- The file of the HTML report; in the directory of the reports if empty. -/
  htmlOutput : String := ""
  /-- Whether the call graph is drawn. -/
  graph : Bool := false
  /-- The format of the drawing. -/
  format : String := "svg"
  workers : Int := 4
  /-- Whether likely entry points are exempt from the check for definitions that could be
  private. -/
  exemptLikelyRoots : Bool := true
  /-- Whether documented definitions count as used. -/
  documentedIsRoot : Bool := false
deriving Inhabited

namespace Config

/-- The configuration that holds where nothing else is said; it depends on whether the working
directory has a directory for sources. -/
def initial (hasSources : Bool) : Config := { paths := [if hasSources then "src" else "."] }

/-! ## Errors -/

/-- A value that does not fit an option. -/
structure Problem where
  /-- The option and, for an item of a list, its position. -/
  place : List String
  text : String
deriving Repr, DecidableEq, Inhabited

/-- The problem in words. -/
def Problem.message (p : Problem) : String :=
  (if ".".intercalate p.place = "" then "<root>" else ".".intercalate p.place) ++ ": " ++ p.text

/-- What can be wrong with a configuration. -/
inductive Error where
  /-- The configuration is no object. -/
  | notAnObject (given : Setting)
  | problems (ps : List Problem)
  | severity (given : Setting)
  /-- An override of an option that does not exist. -/
  | unknownOption (name : String)
  | missingFile (path : String)
  | unknownFormat (ending : String)
  | unreadable (path reason : String)
  | badYaml (path reason : String)
  | badToml (path reason : String)

/-- Text about a value, followed by the value unless it is null. -/
def about (text : String) : Setting → String
  | .null => text
  | v => text ++ ": " ++ v.display

/-- The error in words. -/
def Error.message : Error → String
  | .notAnObject given => about "配置必须是映射（key: value）" given
  | .problems ps => "配置校验失败: " ++ "; ".intercalate (ps.map Problem.message)
  | .severity given =>
    about ("未知的 severity（可选 " ++ ", ".intercalate (Severity.all.map Severity.text) ++ "）") given
  | .unknownOption name => "未知的配置项: " ++ name
  | .missingFile path => "配置文件不存在: " ++ path
  | .unknownFormat ending => "不支持的配置文件格式: " ++ ending
  | .unreadable path reason => "无法读取配置文件 " ++ path ++ ": " ++ reason
  | .badYaml path reason => "YAML 解析失败 " ++ path ++ ": " ++ reason
  | .badToml path reason => "TOML 解析失败 " ++ path ++ ": " ++ reason

/-- Whether the message can show what was given. -/
def Error.isShown : Error → Bool
  | .notAnObject given | .severity given => given.isShown
  | _ => true

/-- The severity that a setting names. -/
def severityOf (given : Setting) : Except Error Severity :=
  match Severity.ofSetting? given with
  | some s => .ok s
  | none => .error (.severity given)

/-- Why there is no configuration. -/
inductive LoadError where
  /-- Something is wrong with the configuration or the file. -/
  | invalid (e : Error)
  /-- The content of the file is no text. -/
  | notText
  /-- A library breaks down. -/
  | broken (what : String)
  /-- What stands for the table of tools is no table. -/
  | toolsNotATable
  /-- Something is wrong with the configuration, and the message cannot show it. -/
  | notShown

/-- The result of checks as the result of loading; the message of an error has to show what was
given. -/
def LoadError.lift {α : Type} : Except Error α → Except LoadError α
  | .ok a => .ok a
  | .error e => .error (if e.isShown then .invalid e else .notShown)

/-- The answer of a library as the result of loading; what it refuses is wrong with the
configuration. -/
def LoadError.answer {ε α : Type} (wrong : ε → Error) : Library.Answer ε α → Except LoadError α
  | .ok a => .ok a
  | .error (.refused e) => .error (.invalid (wrong e))
  | .error (.broken what) => .error (.broken what)

end Config

/-! ## Overrides -/

/-- Options that take precedence over those of a configuration. -/
structure Overrides where
  paths : Option (List String) := none
  wanted : Option (List String) := none
  unwanted : Option (List String) := none
  checks : Option (List String) := none
  ignore : Option (List Setting) := none
  /-- The severity as given, which may not exist. -/
  severity : Option Setting := none
  warningsAsErrors : Option Bool := none
  manifest : Option String := none
  output : Option String := none
  htmlReport : Option Bool := none
  htmlOutput : Option String := none
  graph : Option Bool := none
  format : Option String := none
  workers : Option Int := none
  exemptLikelyRoots : Option Bool := none
  documentedIsRoot : Option Bool := none
deriving Inhabited

/-- Options that were checked: a severity among them is a text. -/
structure Options where
  given : Overrides
  severity_text : ∃ s : Option String, given.severity = s.map Setting.str

/-- The configuration with some options overridden. -/
def Config.override (c : Config) (o : Overrides) : Except Config.Error Config := do
  let severity ← match o.severity with
    | some given => Config.severityOf given
    | none => pure c.severity
  pure {
    paths := o.paths.getD c.paths, wanted := o.wanted.getD c.wanted
    unwanted := o.unwanted.getD c.unwanted, checks := o.checks.getD c.checks
    ignore := o.ignore.getD c.ignore, severity
    warningsAsErrors := o.warningsAsErrors.getD c.warningsAsErrors
    manifest := o.manifest.getD c.manifest, output := o.output.getD c.output
    htmlReport := o.htmlReport.getD c.htmlReport, htmlOutput := o.htmlOutput.getD c.htmlOutput
    graph := o.graph.getD c.graph, format := o.format.getD c.format
    workers := o.workers.getD c.workers
    exemptLikelyRoots := o.exemptLikelyRoots.getD c.exemptLikelyRoots
    documentedIsRoot := o.documentedIsRoot.getD c.documentedIsRoot }

end Deadwood
