import Deadwood.Report.Stats

/-!
# The data of a report

A report is an object with the findings, once as a list and once by file, and their counts. The time
and the project's directory are given.
-/

namespace Deadwood.Report

/-- A section of the report: the findings of one file. -/
def sectionValue (directory : String) (s : String × List Finding) : Value :=
  .dict [("path", .str s.1), ("total_count", .int s.2.length),
    ("issues", .list (s.2.map fun f => (f.shown directory).toValue)),
    ("by_severity", countsValue (bySeverity s.2)), ("by_analyzer", countsValue (byAnalyzer s.2))]

/-- Writes fields into an object: known ones keep their place, others go to the end. -/
def withFields (fields extra : List (String × Value)) : List (String × Value) :=
  (extra.foldl (fun (t : Table String Value) e => t.insert e.1 e.2) ⟨fields⟩).entries

/-- The fields of a report. -/
def data (time directory : String) (findings : List Finding) (extra : List (String × Value)) :
    List (String × Value) :=
  withFields
    [("version", .str "1.0"), ("timestamp", .str time), ("project_root", .str directory),
      ("total_count", .int findings.length), ("stats", (stats directory findings).toValue),
      ("issues", .list (findings.map fun f => (f.shown directory).toValue)),
      ("files", .list ((sections directory findings).map (sectionValue directory)))]
    extra

end Deadwood.Report
