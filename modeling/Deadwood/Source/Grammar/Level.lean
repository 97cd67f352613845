import Deadwood.Source.Grammar
import Deadwood.Source.Syntax

/-!
# Levels of expressions

Three levels of expressions occur inside others: whole expressions, those without a conditional or a
nameless function at the top (`Level.disjunction`), and operands of comparisons (`Level.operand`).
Every rule is given the rules for the three levels and reads one layer of an expression with them.

* `Expr.target?` turns an expression into a place that can be written.
* `namedExpression`, `starExpressions`, `yieldOrExpressions` read expressions as they stand in
  statements.
* `targets` and `clauses` read the parts of loops and comprehensions.
-/

namespace Deadwood.Source

/-! ## Places that can be written -/

namespace Expr

/-- Whether a star stands at the top. -/
def isStarred : Expr → Bool
  | .starred _ => true
  | _ => false

mutual

/-- The expression as a place that is written; only where `star` holds may parts of it be
starred. -/
def target? (star : Bool) : Expr → Option Expr
  | .name line id _ => some (.name line id .store)
  | .member line value field _ => some (.member line value field .store)
  | .subscript value index => some (.subscript value index)
  | .starred value =>
    if star && !value.isStarred then (target? star value).map .starred else none
  | .tuple items => (targetAll? star items).map .tuple
  | .list items => (targetAll? star items).map .list
  | _ => none

/-- The expressions as places that are written. -/
def targetAll? (star : Bool) : List Expr → Option (List Expr)
  | [] => some []
  | e :: rest => do return (← target? star e) :: (← targetAll? star rest)

end

/-- The expression as a single place that is written: no tuple, no list, no star. -/
def singleTarget? : Expr → Option Expr
  | .tuple _ => none
  | .list _ => none
  | e => e.target? false

end Expr

/-! ## Levels -/

/-- The levels of expressions that occur inside others. -/
inductive Level where
  | expression
  | disjunction
  | operand
deriving Repr, DecidableEq

/-- The rules for expressions inside others. -/
abbrev Inner := Level → Rule Expr

namespace Grammar

open Rule

/-- Whether an expression or a starred one can begin with a lexeme. -/
def beginsExpression : Lexeme → Bool
  | .name _ => true
  | .number _ => true
  | .quote .. => true
  | .keyword w => ["None", "True", "False", "not", "lambda", "await"].contains w
  | .mark m => ["(", "[", "\x7b", "-", "+", "~", "...", "*"].contains m
  | _ => false

/-- A whole expression, or a name that is given a value on the way. -/
def namedExpression (inner : Inner) : Rule Expr := do
  match ← peekTwo with
  | (some (.name id), some (.mark ":=")) =>
    let line ← line
    skip
    skip
    let value ← inner .expression
    return .compound .named [.name line id .store, value]
  | _ =>
    let e ← inner .expression
    guard !(← sees (.mark ":="))
    return e

/-- An item of a display: an expression, possibly named, or a starred operand. -/
def displayItem (inner : Inner) : Rule Expr := do
  if ← accept (.mark "*") then return .starred (← inner .operand) else namedExpression inner

/-- An expression or a starred operand. -/
def starExpression (inner : Inner) : Rule Expr := do
  if ← accept (.mark "*") then return .starred (← inner .operand) else inner .expression

/-- One or more expressions, possibly starred; more than one, or one with a comma, are a tuple. -/
def starExpressions (inner : Inner) : Rule Expr := do
  let first ← starExpression inner
  let (items, comma) ← commaSeparated beginsExpression (starExpression inner) first
  return if comma then .tuple items else first

/-- A yield, as an expression. -/
def yieldExpression (inner : Inner) : Rule Expr := do
  word "yield"
  if ← accept (.keyword "from") then return .compound .yield [← inner .expression]
  else match ← peek with
    | some l =>
      if beginsExpression l then return .compound .yield [← starExpressions inner]
      else return .compound .yield []
    | none => return .compound .yield []

/-- A yield or expressions. -/
def yieldOrExpressions (inner : Inner) : Rule Expr := do
  if ← sees (.keyword "yield") then yieldExpression inner else starExpressions inner

/-! ## Comprehensions -/

/-- A place that is written, possibly starred. -/
def starTarget (inner : Inner) : Rule Expr := do
  let e ← if ← accept (.mark "*") then Expr.starred <$> inner .operand else inner .operand
  (e.target? true).elim failure pure

/-- The places that a loop writes. -/
def targets (inner : Inner) : Rule Expr := do
  let first ← starTarget inner
  let (items, comma) ← commaSeparated beginsExpression (starTarget inner) first
  return if comma then .tuple items else first

/-- Whether the clause of a comprehension comes next. -/
def seesClause : Rule Bool := do
  match ← peekTwo with
  | (some (.keyword "for"), _) => return true
  | (some (.keyword "async"), some (.keyword "for")) => return true
  | _ => return false

/-- The clauses of a comprehension, at least one: for each the place, the source and the
conditions. -/
def clauses (inner : Inner) : Rule (List Expr) := do
  guard (← seesClause)
  let found ← many do
    if ← seesClause then
      discard (accept (.keyword "async"))
      word "for"
      let target ← targets inner
      word "in"
      let source ← inner .disjunction
      let conditions ← many do
        if ← accept (.keyword "if") then some <$> inner .disjunction else return none
      return some (target :: source :: conditions)
    else return none
  return found.flatten

end Grammar

end Deadwood.Source
