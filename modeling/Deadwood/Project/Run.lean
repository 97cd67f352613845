import Deadwood.Config.Load
import Deadwood.Drawing
import Deadwood.Ignore.Compile
import Deadwood.Manifest.File
import Deadwood.Project.Result
import Deadwood.Report.Data
import Deadwood.Report.Html
import Deadwood.Report.Tree
import Deadwood.Value.Printer

/-!
# Analysing a project

A run finds the sources of a project, collects them with the help of a manifest, analyses what was
collected, brings the manifest up to date and writes the reports.

* `Request` says what a run is asked for.
* `RunError` is what may end a run, `run` does it, given the machine around it and the libraries.
-/

namespace Deadwood.Project

/-- Where something is kept: nowhere, where the configuration says, or at a given place. -/
inductive Target where
  | nowhere
  | configured
  | at (place : String)
deriving Repr, DecidableEq, Inhabited

/-- The place of something, given what the configuration says; an empty text there means nowhere. -/
def Target.place? (configured : String) : Target → Option String
  | .nowhere => none
  | .configured => if configured = "" then none else some configured
  | .at place => some place

/-- What a run is asked for. -/
structure Request where
  config : Config
  manifest : Target := .configured
  output : Target := .configured

/-- What ends a run. -/
inductive RunError where
  | config (e : Config.LoadError)
  | ignore (e : Ignore.Error)
  | predicate (e : Ignore.PredicateFailure)
  | manifest (b : Manifest.Breakdown)
  | blankDocumentation
  | file (e : FileError)
  /-- A text that is to be written has no encoding. -/
  | unencodable
  | unknownDrawingFormat
  /-- The program that turns drawings into pictures fails. -/
  | noPicture
  /-- A file lies below another file. -/
  | noTree
  | page (e : Report.PageError)

/-- What is wrong with the configuration, in words, if that ends the run. -/
def RunError.complaint? : RunError → Option String
  | .config (.invalid e) => some e.message
  | .ignore (.invalid fault given) => some (Ignore.Error.invalid fault given).message
  | .predicate e => some e.message
  | _ => none

/-- What ended a run, in words. -/
def RunError.message (e : RunError) : String :=
  match e.complaint? with
  | some text => text
  | none =>
    match e with
    | .config .notText => "the configuration file is not UTF-8"
    | .config .toolsNotATable => "what stands for the table of tools is no table"
    | .config .notShown => "a number with too many digits cannot be shown"
    | .config (.broken what) => what
    | .config (.invalid e) => e.message
    | .ignore e => e.message
    | .manifest (.fact _) => "a fact in the manifest has a part that no fact can have"
    | .manifest (.document what) => what
    | .blankDocumentation => "some documentation has no line with text"
    | .file e => e.message
    | .unencodable => "half of a surrogate pair cannot be written"
    | .unknownDrawingFormat => "the format of the drawing is unknown"
    | .noPicture => "the drawing cannot be turned into a picture"
    | .noTree => "a file lies below another file"
    | .page _ => "the report has a part that cannot be shown"
    | .predicate e => e.message

/-- The files of the reports. -/
structure Written where
  json : Option Path := none
  html : Option Path := none
  /-- The text of the drawing. -/
  drawing : Option Path := none
  /-- The drawing as a picture. -/
  picture : Option Path := none
deriving Inhabited

/-- What a run gives. -/
structure Outcome where
  result : Result
  written : Written

variable {m : Type → Type} [Monad m] (host : Host m) (lib : Library)

/-- A step of a run. -/
abbrev Step (m : Type → Type) (α : Type) := ExceptT RunError m α

/-- A result as a step, whose error ends the run. -/
def orEnd {ε α : Type} (wrap : ε → RunError) : Except ε α → Step m α
  | .ok a => pure a
  | .error e => throw (wrap e)

/-! ## Sources -/

/-- What a path leads to. -/
def listing (p : Path) : m Listing := do
  match ← host.kind? p with
  | none => return .missing
  | some .file => return .file
  | some .directory => return .directory (FileTree.ofFiles (← host.filesBelow p))

/-- What some paths lead to. -/
def listings : List Path → m (List (Path × Listing))
  | [] => return []
  | p :: rest => do
    let l ← listing host p
    return (p, l) :: (← listings rest)

/-- Reads the files of some sources. -/
def readAll : List SourceFile → m (List SourceText)
  | [] => return []
  | s :: rest => do
    let content ← host.read (.ofText s.unit)
    return ⟨s, content⟩ :: (← readAll rest)

/-- The sources that a configuration asks for, with their contents. -/
def sourceTexts (config : Config) : m (List SourceText) := do
  let roots ← listings host (config.paths.map .ofText)
  readAll host (sources roots config.wanted config.unwanted)

/-! ## The manifest -/

/-- The entries that are still worth keeping: those of units that were collected, failed, or
exist. -/
def keptEntries (c : Collection) :
    List (String × Manifest.Entry) → m (List (String × Manifest.Entry))
  | [] => return []
  | e :: rest => do
    let keep ←
      if c.manifest.contains e.1 || (c.failed.map (·.1)).contains e.1 then pure true
      else host.isThere (.ofText e.1)
    let kept ← keptEntries c rest
    return if keep then e :: kept else kept

/-- Brings the manifest in a file up to date. -/
def updateManifest (path : Path) (previous : Manifest) (c : Collection) : Step m Unit := do
  let kept ← (keptEntries host c (previous.merge c.manifest).entries :
    m (List (String × Manifest.Entry)))
  let _ ← orEnd (fun _ => .unencodable) (← (Manifest.save host path ⟨kept⟩).run)

/-! ## Reports -/

/-- What a failure to write a text means for a run. -/
def ofWriteError : WriteError → RunError
  | .file e => .file e
  | .unencodable => .unencodable

/-- Writes a file, whose failure ends the run. -/
def writeFile (p : Path) (text : String) : Step m Unit := do
  orEnd ofWriteError (← (host.writeText p text : m (Except WriteError Unit)))

/-- The file of the HTML report. -/
def htmlPath (config : Config) (directory : Path) : Path :=
  if config.htmlOutput = "" then directory.child "unused.html" else .ofText config.htmlOutput

/-- Writes the HTML report; a failure of the file system is reported and does not end the run. -/
def writeHtml (config : Config) (directory : Path) (home : String) (findings : List Finding)
    (data : List (String × Value)) : Step m (Option Path) := do
  let tree ← match Report.tree home findings with
    | some t => pure t
    | none => throw .noTree
  let path := htmlPath config directory
  match ← host.makeDirectories path.parent with
  | .error e => complain e
  | .ok _ =>
    let page ← orEnd .page (Report.page (Report.withFields data [("tree", tree.toValue home)]))
    match ← (host.writeText path page : m (Except WriteError Unit)) with
    | .error (.file e) => complain e
    | .error .unencodable => throw .unencodable
    | .ok _ => return some path
where
  /-- Reports that the file cannot be written. -/
  complain (e : FileError) : Step m (Option Path) := do
    host.say ("⚠️  HTML 报告写入失败: " ++ e.message)
    return none

/-- Writes the drawing of the call graph and, if there is a program for that, the picture. The
program reads the drawing from a second file, which is removed when the picture is made. -/
def writeDrawing (config : Config) (directory : Path) (r : Result) :
    Step m (Path × Option Path) := do
  let text := (drawing r.graph r.findings r.live "").text
  let path := directory.child "call_graph.dot"
  writeFile host path text
  if !isDrawingFormat config.format then throw .unknownDrawingFormat
  let source := directory.child "call_graph"
  writeFile host source text
  match ← (host.draw source config.format : m Picture) with
  | .noProgram => return (path, none)
  | .failed => throw .noPicture
  | .made =>
    orEnd .file (← host.remove source)
    return (path, some (source.withEnding config.format))

/-- Writes all reports that a configuration asks for. -/
def writeReports (config : Config) (directory : Path) (r : Result) : Step m Written := do
  let home ← (host.directory : m String)
  let data := Report.data (← host.now) home r.findings r.extra
  let json := directory.child "unused.json"
  orEnd .file (← host.makeDirectories directory)
  writeFile host json ((Value.dict data).toJsonLines 0)
  let html ←
    if config.htmlReport then writeHtml host config directory home r.findings data else pure none
  let drawn ← if config.graph then some <$> writeDrawing host config directory r else pure none
  return { json := some json, html, drawing := drawn.map (·.1), picture := drawn.bind (·.2) }

/-! ## The run -/

/-- The manifest in a file, if there is to be one. -/
def previousManifest (path : Option Path) : Step m Manifest :=
  match path with
  | none => return ∅
  | some p => do orEnd .manifest (← (Manifest.load host lib.json p).run)

/-- Analyses a project. -/
def run (request : Request) : Step m Outcome := do
  let config := request.config
  let specs ← orEnd .ignore (Ignore.compileAll lib.pattern config.ignore)
  let manifestPath := (request.manifest.place? config.manifest).map Path.ofText
  let previous ← previousManifest host lib manifestPath
  let c ← orEnd (fun _ => .blankDocumentation)
    (collectAll lib.statements previous (← (sourceTexts host config : m (List SourceText))))
  let r ← orEnd .predicate (result config specs c)
  if let some path := manifestPath then updateManifest host path previous c
  let written ← match request.output.place? config.output with
    | some place => writeReports host config (.ofText place) r
    | none => pure {}
  return ⟨r, written⟩

end Deadwood.Project
