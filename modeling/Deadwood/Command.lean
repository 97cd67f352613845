import Deadwood.Command.Line
import Deadwood.Config.Setup
import Deadwood.Project.Run
import Deadwood.Report.Diagnostic

/-!
# What the commands do

* `analyse` is the command that analyses a project and prints the findings, `clean` the one that
  deletes the manifest.
* `perform` does what a command line asks for and gives the exit code: zero if all is well, one if
  there are findings that block, two if the configuration or the command line is wrong.
-/

namespace Deadwood.Command

open Project (Outcome RunError Step)

variable {m : Type → Type} [Monad m] (host : Host m) (lib : Library)

/-! ## Options -/

/-- The names of the checks in a list with commas. -/
def checkNames (s : String) : List String :=
  ((Text.splitOn ',' s).map Text.trim).filter (· ≠ "")

/-- A text that is there and not empty. -/
def nonEmpty (s : Option String) : Option String := s.filter (· ≠ "")

/-- The options of a run that take precedence over the configuration. -/
def RunOptions.overrides (o : RunOptions) : Overrides where
  paths := if o.paths.isEmpty then none else some o.paths
  severity := o.severity.map .str
  warningsAsErrors := if o.warningsAsErrors then some true else none
  checks := (nonEmpty o.checks).map checkNames
  output := o.output
  htmlReport :=
    if o.htmlOpen || (nonEmpty o.htmlOutput).isSome || o.htmlReport then some true else none
  htmlOutput := o.htmlOutput
  graph := if o.graph then some true else none
  format := o.format
  workers := o.workers

/-- What a run is asked for, given the configuration. -/
def RunOptions.request (o : RunOptions) (config : Config) : Project.Request where
  config
  manifest := if o.noManifest then .nowhere else .configured

/-! ## Addresses -/

/-- Whether a byte stands for itself in an address. -/
def isPlainByte (b : UInt8) : Bool :=
  let c := Char.ofNat b.toNat
  c.isAlphanum || "_.-~/".toList.contains c

/-- A digit of base sixteen in upper case. -/
def hexDigit (n : Nat) : Char := (Nat.digitChar n).toUpper

/-- A path as the address of a file. -/
def fileAddress (path : String) : String :=
  "file://" ++ .ofList (path.toUTF8.toList.flatMap fun b =>
    if isPlainByte b then [Char.ofNat b.toNat]
    else ['%', hexDigit (b.toNat / 16), hexDigit (b.toNat % 16)])

/-- A path from the root, without parts that go up. -/
def resolved (directory : String) (p : Path) : String :=
  let full := (Path.ofText directory).append p
  ({ full with parts := Path.withoutUp full.parts } : Path).text

/-! ## The commands -/

/-- The line that counts what a run found. -/
def countLine (directory : String) (o : Outcome) : String :=
  let s := o.result.summary
  "📊 " ++ toString s.files ++ " 个文件（新分析 " ++ toString s.collected ++ "，复用 " ++
    toString s.reused ++ "，失败 " ++ toString s.failed ++ "）| " ++ toString s.symbols ++
    " 个符号 | " ++ toString (Report.stats directory o.result.findings).totalIssues ++ " 个问题"

/-- The lines that tell what a run found. -/
def findingLines (directory : String) (o : Outcome) : List String :=
  o.result.warnings.map ("⚠️  " ++ ·) ++
    (o.result.findings.filter (·.isPrintable)).map (·.diagnostic directory) ++
    ["", countLine directory o] ++
    (Report.stats directory o.result.findings).byAnalyzer.entries.map fun (name, n) =>
      "  • " ++ name ++ ": " ++ toString n

/-- Tells where the reports are, and shows the page if that is asked for. -/
def tellReports (htmlOpen : Bool) (w : Project.Written) : m Unit := do
  if let some p := w.json then host.say ("📄 JSON 报告: " ++ p.text)
  if let some p := w.html then
    host.say ("🌐 HTML 报告: " ++ p.text)
    if htmlOpen then host.openPage (fileAddress (resolved (← host.directory) p))
  if let some p := w.drawing then
    match w.picture with
    | some picture => host.say ("🕸️  调用图: " ++ picture.text)
    | none => host.say ("⚠️  未找到 Graphviz 可执行文件，仅生成 DOT: " ++ p.text)

/-- Whether findings of a configuration's severity block. -/
def isBlocking (c : Config) : Bool :=
  c.severity = .error || (c.severity = .warning && c.warningsAsErrors)

/-- Loads the configuration and analyses the project. -/
def configuredRun (o : RunOptions) : Step m (Config × Outcome) := do
  let loaded ← Project.orEnd .config
    (← (Config.load host lib ((nonEmpty o.config).map .ofText) false).run)
  let config ← Project.orEnd (fun e => .config (.invalid e)) (loaded.override o.overrides)
  return (config, ← Project.run host lib (o.request config))

/-- Analyses the project and tells what was found. -/
def analyse (o : RunOptions) : Step m UInt32 :=
  ExceptT.mk do
    match ← (configuredRun host lib o).run with
    | .error e =>
      match e.complaint? with
      | some text =>
        host.say ("❌ 配置错误: " ++ text)
        return .ok 2
      | none => return .error e
    | .ok (config, outcome) =>
      host.sayAll (findingLines (← host.directory) outcome)
      tellReports host o.htmlOpen outcome.written
      if outcome.result.findings.isEmpty then
        host.say "✅ 未发现问题"
        return .ok 0
      else return .ok (if isBlocking config then 1 else 0)

/-- Deletes the manifest. -/
def clean (file : Option String) : Step m UInt32 :=
  ExceptT.mk do
    match ← (Config.load host lib ((nonEmpty file).map .ofText) true).run with
    | .error (.invalid e) =>
      host.say ("❌ 配置错误: " ++ e.message)
      return .ok 2
    | .error e => return .error (.config e)
    | .ok config =>
      let path :=
        Path.ofText (if config.manifest = "" then Config.initialManifest else config.manifest)
      if ← Manifest.clean host path then host.say ("🧹 已删除 manifest: " ++ path.text)
      else host.say ("ℹ️  没有可删除的 manifest: " ++ path.text)
      return .ok 0

/-- Does what is asked for and gives the exit code. -/
def perform : Invocation → Step m UInt32
  | .help text => do
    host.print text
    return 0
  | .run o => analyse host lib o
  | .init output force => do
    let _ ← Project.orEnd .file (← (Config.create host (.ofText output) force).run)
    return 0
  | .showConfig file => do
    let valid ← Project.orEnd .config
      (← (Config.showCurrent host lib ((nonEmpty file).map .ofText)).run)
    return if valid then 0 else 2
  | .clean file => clean host lib file

end Deadwood.Command
