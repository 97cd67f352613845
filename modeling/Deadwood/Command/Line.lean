import Deadwood.Command.Help

/-!
# The command line

The program has four commands. Reading a command line gives what is asked for, or what is wrong with
it.

* `Invocation` is what is asked for.
* `Invocation.ofWords` reads a command line.
-/

namespace Deadwood.Command

/-! ## Commands -/

/-- The commands of the program. -/
inductive Name where
  | run
  | init
  | showConfig
  | clean
deriving Repr, DecidableEq, Inhabited

namespace Name

/-- All commands. -/
def all : List Name := [.run, .init, .showConfig, .clean]

/-- The word for a command. -/
def text : Name → String
  | .run => "run"
  | .init => "init"
  | .showConfig => "show-config"
  | .clean => "clean"

/-- What a command does. -/
def about : Name → String
  | .run => "Analyze the project"
  | .init => "Generate callclinic.yaml"
  | .showConfig => "Show the effective configuration"
  | .clean => "Delete the manifest"

/-- The command that a word stands for. -/
def ofText? (s : String) : Option Name := all.find? (·.text = s)

/-- The option for a configuration file. -/
def configFlag : Flag :=
  { names := ["--config"], takes := .text "CONFIG",
    about := "Path to config (YAML or pyproject.toml)" }

/-- The options of a command. -/
def flags : Name → List Flag
  | .run => [
    .help,
    { names := ["--path"], takes := .text "PATH", about := "Path to scan (repeatable)" },
    configFlag,
    { names := ["--severity"], takes := .text "SEVERITY"
      about := "hint | information | warning | error" },
    { names := ["--warnings-as-errors"], about := "Treat warning severity as blocking" },
    { names := ["--checks"], takes := .text "CHECKS"
      about := "Comma separated analyzers (private,unused,recursive_only)" },
    { names := ["--output"], takes := .text "OUTPUT", about := "Output directory for reports" },
    { names := ["--html-report"], about := "Also write an HTML report" },
    { names := ["--html-output"], takes := .text "HTML_OUTPUT"
      about := "HTML report path (default <output>/unused.html)" },
    { names := ["--html-open"], about := "Open the HTML report in a browser" },
    { names := ["--graph"], about := "Render the call graph with Graphviz" },
    { names := ["--format"], takes := .text "FORMAT",
      about := "Graph output format (svg, png, ...)" },
    { names := ["--workers"], takes := .number "WORKERS", about := "Concurrent collectors" },
    { names := ["--no-manifest"], about := "Ignore and do not update the manifest" }]
  | .init => [
    .help,
    { names := ["--force"], about := "Overwrite existing callclinic.yaml if present" },
    { names := ["--output"], takes := .text "OUTPUT", about := "Config file to write" }]
  | .showConfig | .clean => [.help, configFlag]

/-- The name of the program and the command. -/
def program (n : Name) : String := "callclinic " ++ n.text

/-- The description of a command. -/
def help (n : Name) : String := description n.program n.flags

end Name

/-- The name of the program. -/
def program : String := "callclinic"

/-- The commands as a choice. -/
def choice : String := "\x7b" ++ ",".intercalate (Name.all.map Name.text) ++ "\x7d"

/-- How the program is used. -/
def mainUsage : String := usage program ["[-h]", choice, "..."]

/-- The description of the program. -/
def mainHelp : String :=
  let commands : List Row :=
    { head := choice } :: Name.all.map fun n => { indent := 4, head := n.text, about := n.about }
  let options := [Flag.help.row]
  let column := columnOf (commands ++ options)
  paragraphs [
    [mainUsage],
    ["Find unused, narrowable and recursion-only code"],
    table column "positional arguments" commands,
    table column "options" options]

/-! ## Invocations -/

/-- The options of a run. -/
structure RunOptions where
  paths : List String := []
  config : Option String := none
  severity : Option String := none
  warningsAsErrors : Bool := false
  checks : Option String := none
  output : Option String := none
  htmlReport : Bool := false
  htmlOutput : Option String := none
  htmlOpen : Bool := false
  graph : Bool := false
  format : Option String := none
  workers : Option Int := none
  noManifest : Bool := false
deriving Repr, Inhabited

/-- What the program is asked for. -/
inductive Invocation where
  /-- To show a description. -/
  | help (text : String)
  | run (o : RunOptions)
  | init (output : String) (force : Bool)
  | showConfig (config : Option String)
  | clean (config : Option String)
deriving Repr, Inhabited

/-- A mistake on a command line: how it should be used, by whom, and what is wrong. -/
structure UsageError where
  usage : String
  program : String
  misuse : Misuse

/-- The mistake as a line. -/
def UsageError.line (e : UsageError) : String := e.program ++ ": error: " ++ e.misuse.message

/-- The options of a run as they were given. -/
def RunOptions.ofReading (r : Reading) : RunOptions where
  paths := r.values "--path"
  config := r.value? "--config"
  severity := r.value? "--severity"
  warningsAsErrors := r.has "--warnings-as-errors"
  checks := r.value? "--checks"
  output := r.value? "--output"
  htmlReport := r.has "--html-report"
  htmlOutput := r.value? "--html-output"
  htmlOpen := r.has "--html-open"
  graph := r.has "--graph"
  format := r.value? "--format"
  workers := (r.value? "--workers").bind Text.readInt?
  noManifest := r.has "--no-manifest"

/-- What a command is asked for by its options. -/
def Name.invocation (n : Name) (r : Reading) : Invocation :=
  if r.help then .help n.help
  else match n with
    | .run => .run (.ofReading r)
    | .init => .init ((r.value? "--output").getD "callclinic.yaml") (r.has "--force")
    | .showConfig => .showConfig (r.value? "--config")
    | .clean => .clean (r.value? "--config")

/-- Reads the options of a command. -/
def Name.read (n : Name) (words : List String) : Except UsageError Reading :=
  match wordsOf n.flags words >>= readFlags with
  | .ok r => .ok r
  | .error misuse => .error ⟨usage n.program (n.flags.map Flag.usage), n.program, misuse⟩

/-- A mistake in front of the command or with the command itself. -/
def misused {α : Type} (misuse : Misuse) : Except UsageError α :=
  .error ⟨mainUsage, program, misuse⟩

/-- Whether a word cannot be an option of the program and so begins the command. -/
def beginsCommand : List Word → Bool
  | .plain _ :: _ => true
  | .dashes :: .plain _ :: _ => true
  | _ => false

/-- The number of words in front of the command. -/
def commandPlace : List Word → Nat
  | [] => 0
  | w :: rest => if beginsCommand (w :: rest) then 0 else commandPlace rest + 1

/-- Reads a command line. -/
def Invocation.ofWords (words : List String) : Except UsageError Invocation := do
  let kinds ← match wordsOf [.help] words with
    | .ok kinds => pure kinds
    | .error misuse => misused misuse
  let place := commandPlace kinds
  let before ← match readFlags (kinds.take place) with
    | .ok r => pure r
    | .error misuse => misused misuse
  if before.help then return .help mainHelp
  match words.drop place with
  | [] => if before.left.isEmpty then return .help mainHelp else misused (.leftOver before.left)
  | word :: rest =>
    match Name.ofText? word with
    | none => misused (.unknownCommand word (Name.all.map Name.text))
    | some n =>
      let r ← n.read rest
      let left := before.left ++ r.left
      if r.help || left.isEmpty then return n.invocation r else misused (.leftOver left)

end Deadwood.Command
