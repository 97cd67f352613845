import Deadwood.Source.Grammar.Argument
import Deadwood.Source.Grammar.Display
import Deadwood.Source.Grammar.Parameter

/-!
# The grammar of expressions

An expression is read in layers, from the atoms outwards.

* `atom`, `primary`, `operand`, `comparison`, `disjunction`, `wholeExpression` are the layers.
* `expressionRule` ties the layers together; they may be nested as often as its fuel says.
-/

namespace Deadwood.Source

namespace Grammar

open Rule

/-- An expression that is not put together by operators, calls or subscripts. -/
def atom (inner : Inner) : Rule Expr := do
  let line ← line
  match ← peek with
  | some (.name id) =>
    skip
    return .name line id .load
  | some (.number _) =>
    skip
    return .constant
  | some (.quote ..) => literals inner
  | some (.keyword w) =>
    guard (["None", "True", "False"].contains w)
    skip
    return .constant
  | some (.mark m) =>
    skip
    match m with
    | "(" => parenthesised inner
    | "[" => bracketed inner
    | "\x7b" => braced inner
    | "..." => return .constant
    | _ => failure
  | _ => failure

/-- An atom with the attributes, calls and subscripts behind it. -/
def primary (inner : Inner) : Rule Expr := do
  let line ← line
  let first ← atom inner
  iterate (fun e => do
    if ← accept (.mark ".") then return some (.member line e (← name) .load)
    else if ← accept (.mark "(") then
      let a ← arguments true inner
      return some (.call line e a.positional a.keywords)
    else if ← accept (.mark "[") then return some (.subscript e (← indices inner))
    else return none) first

/-- Signs, powers and awaits, nested at most as often as the fuel says. -/
def factor (inner : Inner) : Nat → Rule Expr
  | 0 => failure
  | fuel + 1 => do
    if ← acceptAny ["+", "-", "~"] then return .compound .unary [← factor inner fuel]
    else
      let base ← if ← accept (.keyword "await") then do pure (.compound .await [← primary inner])
        else primary inner
      if ← accept (.mark "**") then return .compound .binary [base, ← factor inner fuel]
      else return base

/-- Operands joined by some operators, from the left. -/
def joined (operators : List String) (operand : Rule Expr) : Rule Expr := do
  let first ← operand
  iterate (fun e => do
    if ← acceptAny operators then return some (.compound .binary [e, ← operand])
    else return none) first

/-- Everything that binds closer than a comparison. -/
def operand (inner : Inner) : Rule Expr := do
  let fuel := (← get).length + 1
  joined ["|"] (joined ["^"] (joined ["&"] (joined ["<<", ">>"] (joined ["+", "-"]
    (joined ["*", "/", "//", "%", "@"] (factor inner fuel))))))

/-- The operator of a comparison, if there is one. -/
def comparisonOperator : Rule Bool := do
  if ← acceptAny ["==", "!=", "<=", "<", ">=", ">"] then return true
  else match ← peekTwo with
    | (some (.keyword "in"), _) =>
      skip
      return true
    | (some (.keyword "not"), some (.keyword "in")) =>
      skip
      skip
      return true
    | (some (.keyword "is"), some (.keyword "not")) =>
      skip
      skip
      return true
    | (some (.keyword "is"), _) =>
      skip
      return true
    | _ => return false

/-- A chain of comparisons. -/
def comparison (inner : Inner) : Rule Expr := do
  let first ← operand inner
  let others ← many do
    if ← comparisonOperator then some <$> operand inner else return none
  return if others.isEmpty then first else .compound .comparison (first :: others)

/-- Negations, nested at most as often as the fuel says. -/
def inversion (inner : Inner) : Nat → Rule Expr
  | 0 => failure
  | fuel + 1 => do
    if ← accept (.keyword "not") then return .compound .unary [← inversion inner fuel]
    else comparison inner

/-- Terms joined by a word. -/
def connected (w : String) (term : Rule Expr) : Rule Expr := do
  let first ← term
  let others ← many do
    if ← accept (.keyword w) then some <$> term else return none
  return if others.isEmpty then first else .compound .boolean (first :: others)

/-- Everything that binds closer than a conditional. -/
def disjunction (inner : Inner) : Rule Expr := do
  let fuel := (← get).length + 1
  connected "or" (connected "and" (inversion inner fuel))

/-- A whole expression. -/
def wholeExpression (inner : Inner) : Rule Expr := do
  if ← accept (.keyword "lambda") then
    let p ← parameters false ":" inner
    mark ":"
    return .lambda p.keywordDefaults p.defaults (← inner .expression)
  else
    let value ← disjunction inner
    if ← accept (.keyword "if") then
      let test ← disjunction inner
      word "else"
      return .compound .conditional [test, value, ← inner .expression]
    else return value

/-- One layer of an expression at a level. -/
def layer (inner : Inner) : Level → Rule Expr
  | .expression => wholeExpression inner
  | .disjunction => disjunction inner
  | .operand => operand inner

end Grammar

/-- Expressions at a level, nested at most as often as the fuel says. -/
def expressionRule : Nat → Level → Rule Expr
  | 0, _ => failure
  | fuel + 1, level => Grammar.layer (expressionRule fuel) level

end Deadwood.Source
