import Deadwood.Number.Shortest
import Deadwood.Report.Diagnostic

/-!
# Counting findings

Findings are counted by severity and by analyzer, and grouped by the path that is shown for their
file, which depends on the working directory.

* `countBy` counts by a key, the keys in the order in which they come.
* `sections` are the findings by path, those with most findings first.
* `stats` gives the totals, the counts, the ten longest sections and the average for a file.
-/

namespace Deadwood.Report

/-- How often each key occurs, in the order in which the keys come. -/
def countBy (key : Finding → String) (findings : List Finding) : Table String Nat :=
  findings.foldl (fun t f => t.update (key f) fun n => n.getD 0 + 1) ∅

/-- The counts of severities, in the order in which they come. -/
def bySeverity (findings : List Finding) : Table String Nat := countBy (·.severity) findings

/-- The counts of analyzers, in the order of their names. -/
def byAnalyzer (findings : List Finding) : Table String Nat :=
  ⟨(countBy (·.kind.analyzer) findings).entries.mergeSort fun a b => a.1 ≤ b.1⟩

/-- The findings by the path that is shown, in the order in which the paths come. -/
def byPath (directory : String) (findings : List Finding) : Table String (List Finding) :=
  findings.foldl
    (fun t f => t.update (displayPath directory f.location.file) fun old => old.getD [] ++ [f]) ∅

/-- The order of sections: those with more findings first, then by path. -/
def sectionLe (a b : String × List Finding) : Bool :=
  if a.2.length = b.2.length then a.1 ≤ b.1 else b.2.length < a.2.length

/-- The findings by path, those with most findings first. -/
def sections (directory : String) (findings : List Finding) : List (String × List Finding) :=
  (byPath directory findings).entries.mergeSort sectionLe

/-- The levels of severity, the worst first. -/
def severityOrder : List String := ["error", "warning", "information", "hint"]

/-- The counts of severities with an entry for every level. -/
def allSeverities (findings : List Finding) : Table String Nat :=
  severityOrder.foldl (fun t s => t.insertNew s 0) (bySeverity findings)

/-- The counts of one file. -/
structure FileStats where
  file : String
  count : Nat
  bySeverity : Table String Nat
  byAnalyzer : Table String Nat
deriving Repr, Inhabited

/-- The counts of all findings. -/
structure Stats where
  totalIssues : Nat
  totalFiles : Nat
  average : Binary64
  bySeverity : Table String Nat
  byAnalyzer : Table String Nat
  topFiles : List FileStats
deriving Repr, Inhabited

/-- The number of findings for a file, on average, to two places. -/
def averageFor (findings files : Nat) : Binary64 :=
  if files = 0 then .zero false else (Binary64.ofRatio false findings files).roundPlaces 2

/-- The counts of a section. -/
def fileStats (s : String × List Finding) : FileStats :=
  ⟨s.1, s.2.length, Report.bySeverity s.2, Report.byAnalyzer s.2⟩

/-- The counts of findings. -/
def stats (directory : String) (findings : List Finding) : Stats :=
  let groups := sections directory findings
  { totalIssues := findings.length
    totalFiles := groups.length
    average := averageFor findings.length groups.length
    bySeverity := allSeverities findings
    byAnalyzer := byAnalyzer findings
    topFiles := (groups.take 10).map fileStats }

/-! ## As objects -/

/-- Counts as an object. -/
def countsValue (t : Table String Nat) : Value := .dict (t.entries.map fun e => (e.1, .int e.2))

/-- The counts of a file as an object. -/
def FileStats.toValue (s : FileStats) : Value :=
  .dict [("file", .str s.file), ("count", .int s.count), ("by_severity", countsValue s.bySeverity),
    ("by_analyzer", countsValue s.byAnalyzer)]

/-- The counts of all findings as an object. -/
def Stats.toValue (s : Stats) : Value :=
  .dict [("total_issues", .int s.totalIssues), ("total_files", .int s.totalFiles),
    ("avg_issues_per_file", .float s.average), ("by_severity", countsValue s.bySeverity),
    ("by_analyzer", countsValue s.byAnalyzer),
      ("top_files", .list (s.topFiles.map FileStats.toValue))]

end Deadwood.Report
