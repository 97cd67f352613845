import Deadwood.Source.Syntax
import Deadwood.Text.Lines

/-!
# Summaries of documentation

The documentation of a module, class or function is the text that is its first statement. Its
summary is the first line of that text, once the indentation that all its lines share has been
removed.

* `documentation?` finds the text, `cleaned` removes the shared indentation.
* `summary` gives the first line; a documentation of white space alone may have none.
-/

namespace Deadwood.Source

/-- The text that is the first statement of a body. -/
def documentation? : List Stmt → Option String
  | .evaluate (.text s) :: _ => some s
  | _ => none

/-- The number of white space characters at the front of a line; none if there is nothing else. -/
def indentation? (line : String) : Option Nat :=
  let cs := line.toList
  if cs.all Text.isBlank then none else some (cs.takeWhile Text.isBlank).length

/-- The least indentation of the lines that are not blank. -/
def sharedIndentation (lines : List String) : Nat :=
  ((lines.filterMap indentation?).min?).getD 0

/-- A list of lines without the empty ones at its two ends. -/
def dropEmptyEnds (lines : List String) : List String :=
  ((lines.reverse.dropWhile (· = "")).reverse).dropWhile (· = "")

/-- A documentation without the indentation that its lines share. -/
def cleaned (text : String) : String :=
  match Text.splitOn '\n' (Text.expandTabs text) with
  | [] => ""
  | first :: rest =>
    let margin := sharedIndentation rest
    "\n".intercalate (dropEmptyEnds (Text.trimLeft first :: rest.map (Text.drop · margin)))

/-- What is known of the first line of a documentation. -/
inductive Summary where
  /-- There is no documentation. -/
  | absent
  | line (text : String)
  /-- The documentation has no line with text. -/
  | blank
deriving Repr, DecidableEq, Inhabited

/-- The summary of the documentation of a body. -/
def summary (body : List Stmt) : Summary :=
  match documentation? body with
  | none => .absent
  | some text =>
    let clean := cleaned text
    if clean = "" then .absent
    else if Text.trim clean = "" then .blank
    else .line (Text.firstLine (Text.trim clean))

end Deadwood.Source
