import Deadwood.Report.Escape
import Deadwood.Text.Point
import Deadwood.Value

/-!
# The HTML report

`Report.page` writes the data of a report as an HTML page. The data is any object; a missing field
is left empty, and data of another form is an error.

* `PageError` says what is wrong with the data.
* `severityRows`, `analyzerRows`, `topRows`, `fileSection`, `treeHtml` write the parts of the page.
-/

namespace Deadwood.Report

/-- What is wrong with the data of a page. -/
inductive PageError where
  /-- An object is expected. -/
  | notAnObject
  /-- A list is expected. -/
  | notAList
  /-- A severity cannot be looked up because it is a list or an object. -/
  | notAKey
  /-- A file of the tree has no path. -/
  | missingPath
deriving Repr, DecidableEq

/-- The parts of a page, or what is wrong with them. -/
abbrev Page := Except PageError

/-! ## Reading the data -/

/-- The fields of an object. -/
def asObject : Value → Page (List (String × Value))
  | .dict fields => .ok fields
  | _ => .error .notAnObject

/-- A field of an object, null if it is missing. -/
def fieldOf (fields : List (String × Value)) (name : String) : Value :=
  (Value.field? fields name).getD .null

/-- The fields of an object that may be left out. -/
def optionalObject (v : Value) : Page (List (String × Value)) :=
  if v.truthy then asObject v else .ok []

/-- The items of a list that may be left out. The items of an object or a text are texts, which are
no objects. -/
def optionalList : Value → Page (List Value)
  | .list items => .ok items
  | .dict fields => .ok (fields.map fun f => .str f.1)
  | .str s => .ok ((Text.points s.toList).map fun c => .str (.ofList c))
  | v => if v.truthy then .error .notAList else .ok []

/-- A value as it is written on the page. -/
def shownValue (v : Value) : String := escape v.text

/-! ## Counts -/

/-- The colour of a severity. -/
def severityColor : String → String
  | "error" => "#c00"
  | "warning" => "#e69500"
  | "information" => "#1565c0"
  | "hint" => "#666"
  | _ => "#000"

/-- The colour of a severity that is given by a value. -/
def valueColor : Value → Page String
  | .str s => .ok (severityColor s)
  | .list _ => .error .notAKey
  | .dict _ => .error .notAKey
  | _ => .ok "#000"

/-- A row with the count of a severity. -/
def severityRow (f : String × Value) : String :=
  "<tr><td style='color:" ++ severityColor f.1 ++ ";font-weight:600'>" ++ escape f.1 ++
    "</td><td>" ++
    shownValue f.2 ++ "</td></tr>"

/-- A row with the count of an analyzer. -/
def analyzerRow (f : String × Value) : String :=
  "<tr><td>" ++ escape f.1 ++ "</td><td>" ++ shownValue f.2 ++ "</td></tr>"

/-- A row with the count of a file. -/
def topRow (v : Value) : Page String := do
  let fields ← asObject v
  return "<tr><td><code>" ++ shownValue (fieldOf fields "file") ++ "</code></td><td>" ++
    shownValue (fieldOf fields "count") ++ "</td></tr>"

/-- The rows with the counts of files. -/
def topRows (files : List Value) : Page String := do
  let rows := String.join (← files.mapM topRow)
  return if rows = "" then "<tr><td colspan='2'>No issues found</td></tr>" else rows

/-! ## Files -/

/-- A row with a finding. -/
def issueRow (v : Value) : Page String := do
  let fields ← asObject v
  let color ← valueColor (fieldOf fields "severity")
  return "<tr><td>" ++ shownValue (fieldOf fields "line") ++ "</td>" ++
    "<td style='color:" ++ color ++ "'>" ++ shownValue (fieldOf fields "severity") ++ "</td>" ++
    "<td>" ++ shownValue (fieldOf fields "analyzer") ++ "</td>" ++
    "<td><code>" ++ shownValue (fieldOf fields "scope") ++ "." ++
      shownValue (fieldOf fields "signature") ++ "</code></td>" ++
    "<td>" ++ shownValue (fieldOf fields "message") ++ "</td></tr>"

/-- The findings of a file. -/
def fileSection (v : Value) : Page String := do
  let fields ← asObject v
  let rows ← (← optionalList (fieldOf fields "issues")).mapM issueRow
  let path := shownValue (fieldOf fields "path")
  return "\n  <h3 id='" ++ path ++ "'><code>" ++ path ++ "</code> (" ++
    shownValue (fieldOf fields "total_count") ++ ")</h3>\n  <table>\n" ++
    "    <thead><tr><th>Line</th><th>Severity</th><th>Analyzer</th><th>Symbol</th>" ++
    "<th>Message</th></tr></thead>\n    <tbody>" ++ String.join rows ++ "</tbody>\n  </table>"

/-! ## The tree -/

/-- Texts with names, in the order of the names, put together. -/
def joinByName (items : List (String × String)) : String :=
  String.join ((items.mergeSort fun a b => a.1 ≤ b.1).map (·.2))

/-- An item of the tree for a file. -/
def fileItem (name : String) (fields : List (String × Value)) (count : String) : Page String := do
  match Value.field? fields "path" with
  | none => .error .missingPath
  | some path =>
    return "<li>📄 <a href='#" ++ shownValue path ++ "'>" ++ escape name ++
      "</a> <span class='count'>" ++ count ++ "</span></li>"

/-- An item of the tree for a folder, whose entries are given. -/
def folderItem (name count entries : String) : String :=
  "<li><details open><summary>📁 " ++ escape name ++ " <span class='count'>" ++ count ++
    "</span></summary>" ++ entries ++ "</details></li>"

/-- The count that an entry of the tree shows. -/
def shownCount (fields : List (String × Value)) : String :=
  shownValue ((Value.field? fields "count").getD (.int 0))

/-- Whether an entry of the tree is a file. -/
def isFileEntry (fields : List (String × Value)) : Bool :=
  match Value.field? fields "type" with
  | some (.str s) => s = "file"
  | _ => false

mutual

/-- The list of the entries of a folder. -/
def treeList : Value → Page String
  | .dict fields => do
    return "<ul class='tree'>" ++ joinByName (← treeChildren fields) ++ "</ul>"
  | _ => .error .notAnObject

/-- The entries that the fields of a folder hold, each with its name. -/
def treeChildren : List (String × Value) → Page (List (String × String))
  | [] => .ok []
  | (name, v) :: rest =>
    if name = "children" then treeEntriesOf v else treeChildren rest

/-- The entries of a folder, each with its name. -/
def treeEntriesOf : Value → Page (List (String × String))
  | .dict entries => treeEntries entries
  | v => if v.truthy then .error .notAList else .ok []

/-- The items of the tree for the entries of a folder. -/
def treeEntries : List (String × Value) → Page (List (String × String))
  | [] => .ok []
  | (name, v) :: rest => do
    let item ← treeItem name v
    return (name, item) :: (← treeEntries rest)

/-- The item of the tree for an entry. -/
def treeItem (name : String) : Value → Page String
  | .dict fields => do
    let count := shownCount fields
    if isFileEntry fields then fileItem name fields count
    else
      return folderItem name count
        ("<ul class='tree'>" ++ joinByName (← treeChildren fields) ++ "</ul>")
  | _ => .error .notAnObject

end

/-- The tree of the page, if there is one. -/
def treeHtml (v : Value) : Page String := do
  if v.truthy then return "<h2>Files</h2>" ++ (← treeList v) else return ""

/-! ## The page -/

/-- The beginning of the page. -/
def pageHead : String :=
  "\n<!doctype html>\n" ++
  "<html><head><meta charset='utf-8'><title>callclinic Unused Code Report</title>\n" ++
  "<style>\n" ++
  "body\x7bfont-family:system-ui,-apple-system,Segoe UI,Roboto,Arial,sans-serif; padding:16px;\x7d\n" ++
  "table\x7bborder-collapse:collapse; width:100%; margin-bottom:12px;\x7d\n" ++
  "th,td\x7bborder:1px solid #ccc; padding:6px 8px; text-align:left;\x7d\n" ++
  "ul.tree\x7blist-style:none; padding-left:16px;\x7d\n" ++
  ".count\x7bcolor:#888; font-size:90%;\x7d\n" ++
  "</style></head>\n" ++
  "<body>\n" ++
  "  <h1>callclinic Unused Code Report</h1>\n"

/-- A table of the page with two columns. -/
def pageTable (title left right rows : String) : String :=
  "  <h2>" ++ title ++ "</h2>\n  <table><thead><tr><th>" ++ left ++ "</th><th>" ++ right ++
    "</th></tr></thead><tbody>" ++ rows ++ "</tbody></table>\n"

/-- The page for the data of a report. -/
def page (fields : List (String × Value)) : Page String := do
  let stats ← asObject ((Value.field? fields "stats").getD (.dict []))
  let severities := (← optionalObject (fieldOf stats "by_severity")).map severityRow
  let analyzers := (← optionalObject (fieldOf stats "by_analyzer")).map analyzerRow
  let top ← topRows (← optionalList (fieldOf stats "top_files"))
  let sections ← (← optionalList (fieldOf fields "files")).mapM fileSection
  let tree ← treeHtml (fieldOf fields "tree")
  return pageHead ++
    "  <p>Generated: " ++ shownValue (fieldOf fields "timestamp") ++ " | Project: <code>" ++
      shownValue (fieldOf fields "project_root") ++ "</code></p>\n" ++
    "  <ul>\n" ++
    "    <li>Total issues: " ++ shownValue ((Value.field? stats "total_issues").getD (.int 0)) ++
      "</li>\n" ++
    "    <li>Files with issues: " ++
      shownValue ((Value.field? stats "total_files").getD (.int 0)) ++
      "</li>\n" ++
    "    <li>Average per file: " ++
      shownValue ((Value.field? stats "avg_issues_per_file").getD (.float (.zero false))) ++
        "</li>\n" ++
    "  </ul>\n" ++
    pageTable "By Severity" "Severity" "Count" (String.join severities) ++
    pageTable "By Analyzer" "Analyzer" "Count" (String.join analyzers) ++
    pageTable "Top Files" "File" "Issues" top ++
    "  " ++ tree ++ "\n" ++
    "  <h2>Issues</h2>\n" ++
    "  " ++ String.join sections ++ "\n" ++
    "</body></html>\n"

end Deadwood.Report
