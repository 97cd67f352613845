import Deadwood.Collect.Scope

/-!
# The outline of a module

Before the statements of a module are walked over, the names that its own code defines and imports
are gathered, so that a use may come before the definition.

* `topStatements` lists the statements of a module's own code, those in branches, loops, attempts
  and resource blocks included.
* `outline` gathers from them the imports, the definitions and the names that the module declares as
  its public ones.
-/

namespace Deadwood.Collect

open Source (Expr Stmt Clause BlockForm)

mutual

/-- The statements that a statement of a module's own code holds, itself first. -/
def topStatement : Stmt → List Stmt
  | .block form clauses =>
    .block form clauses :: if form = .select then [] else topClauses clauses
  | s => [s]

/-- The statements of a module's own code. -/
def topStatements : List Stmt → List Stmt
  | [] => []
  | s :: rest => topStatement s ++ topStatements rest

/-- The statements in clauses of a module's own code. -/
def topClauses : List Clause → List Stmt
  | [] => []
  | .mk _ body :: rest => topStatements body ++ topClauses rest

end

/-- The texts in a list of constants. -/
def textItems (items : List Expr) : List String :=
  items.filterMap fun
    | .text s => some s
    | _ => none

/-- The texts that a list, tuple or set is written with. -/
def texts : Expr → List String
  | .list items => textItems items
  | .tuple items => textItems items
  | .set items => textItems items
  | _ => []

/-- Whether an expression is the name of the list of public names. -/
def isPublicList : Expr → Bool
  | .name _ id _ => id = "__all__"
  | _ => false

/-- The public names that a statement declares. -/
def declaredNames : Stmt → List String
  | .assign targets value => if targets.any isPublicList then texts value else []
  | .augment target value => if isPublicList target then texts value else []
  | _ => []

/-- What is known of a module before it is walked over. -/
structure Outline where
  /-- The imports of its own code. -/
  imports : Names
  /-- The names that it defines. -/
  defined : List String
  /-- The names that it declares as public. -/
  declared : List String
deriving Repr, Inhabited

/-- The outline of a module. -/
def outline (module : String) (isPackage : Bool) (body : List Stmt) : Outline :=
  let statements := topStatements body
  let p := Place.top module isPackage []
  { imports := statements.foldl (fun n s => n.register p s) {}
    defined := statements.filterMap definedName?
    declared := statements.flatMap declaredNames }

end Deadwood.Collect
