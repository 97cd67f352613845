import Deadwood.Source.Grammar.Statement

/-!
# Reading a module

`Source.read` gives the statements of a source file, or why it has none. A tree may be nested only
to some depth, and an analysis that walks over it only to a lesser one.
-/

namespace Deadwood.Source

/-- Why a source file cannot be analysed. -/
inductive Fault where
  /-- The file is not a module. -/
  | malformed (problem : String)
  /-- Its tree is nested too deeply to be built, which shows in a failure of the given kind. -/
  | tooDeepToRead (kind : String)
  /-- Its tree is nested too deeply to be walked over. -/
  | tooDeepToWalk (kind : String)
deriving Repr, DecidableEq

/-- The text of a fault. -/
def Fault.message : Fault → String
  | .malformed problem => "syntax error (" ++ problem ++ ")"
  | .tooDeepToRead kind => "too deeply nested to parse (" ++ kind ++ ")"
  | .tooDeepToWalk kind => "too deeply nested to analyze (" ++ kind ++ ")"

/-- How deeply a tree may be nested. -/
def maxDepth : Nat := 2950

/-- How deeply a tree may be nested that is walked over. -/
def maxWalkDepth : Nat := 490

/-- The statements of a source text. -/
def statements? (chars : List Char) : Option (List Stmt) := do
  Grammar.module? (expressionRule (chars.length + 1)) (← tokens? 1 chars)

/-- The statements of a source file. -/
def read (file : List UInt8) : Except Fault (List Stmt) :=
  match text? file >>= statements? with
  | none => .error (.malformed "...")
  | some body =>
    let depth := Stmt.depthAll body
    if depth > maxDepth then .error (.tooDeepToRead "RecursionError")
    else if depth > maxWalkDepth then .error (.tooDeepToWalk "RecursionError")
    else .ok body

end Deadwood.Source
