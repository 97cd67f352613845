import Deadwood.Source.Grammar.Expression

/-!
# The grammar of patterns

The pattern of a case is read for the expressions in it: the constants and dotted names it compares
with and the classes it takes apart, in the order in which they are walked. Names that a pattern
binds are no expressions.

* `closedPattern` reads a pattern that needs no brackets, given the rule for those inside it.
* `casePattern` is the pattern of a case.
-/

namespace Deadwood.Source.Grammar

open Rule

/-- Whether the next token shows that a name before it is not bound by a pattern. -/
def seesContinuation : Rule Bool := do
  match ← peek with
  | some (.mark m) => return [".", "(", "="].contains m
  | _ => return false

/-- A name that a pattern binds. -/
def boundName : Rule Unit := do
  let id ← name
  guard (id ≠ "_")
  guard !(← seesContinuation)

/-- A number, which may have a sign or be complex. -/
def patternNumber : Rule Unit := do
  discard (accept (.mark "-"))
  let number : Rule Bool := do
    match ← peek with
    | some (.number imaginary) =>
      skip
      return imaginary
    | _ => failure
  let imaginary ← number
  if ← acceptAny ["+", "-"] then
    guard !imaginary
    guard (← number)

/-- A constant in a pattern. -/
def patternConstant (inner : Inner) : Rule (List Expr) := do
  match ← peek with
  | some (.quote ..) => return [← literals inner]
  | some (.keyword w) =>
    guard (["None", "True", "False"].contains w)
    skip
    return []
  | _ =>
    patternNumber
    return []

/-- The rest of a dotted name. -/
def dottedRest (line : Nat) (first : Expr) : Rule Expr :=
  iterate (fun e => do
    if ← accept (.mark ".") then return some (.member line e (← name) .load)
    else return none) first

/-- The patterns inside a class pattern behind the opening bracket, with the closing one: positional
ones, then those of keywords. -/
def classPatterns (pattern : Rule (List Expr)) : Rule (List Expr) := do
  let one (keyword : Bool) : Rule (Bool × List Expr) := do
    match ← peekTwo with
    | (some (.name _), some (.mark "=")) =>
      skip
      skip
      return (true, ← pattern)
    | _ =>
      guard !keyword
      return (false, ← pattern)
  if ← accept (.mark ")") then return []
  let first ← one false
  let all ← iterate (fun (keyword, found) => do
    if ← accept (.mark ",") then
      if ← sees (.mark ")") then return none
      else
        let (keyword, more) ← one keyword
        return some (keyword, found ++ more)
    else return none) first
  mark ")"
  return all.2

/-- A pattern inside a sequence, which may be starred; whether it is. -/
def sequenceItem (pattern : Rule (List Expr)) : Rule (Bool × List Expr) := do
  if ← accept (.mark "*") then
    discard name
    guard !(← seesContinuation)
    return (true, [])
  else return (false, ← pattern)

/-- The items of a sequence behind the first one, up to the closing mark; whether there is a
comma. -/
def sequenceRest (pattern : Rule (List Expr)) (more : Lexeme → Bool) (first : Bool × List Expr) :
    Rule (List Expr × Bool) := do
  let (found, comma) ← commaSeparated more (sequenceItem pattern) first
  return (found.flatMap (·.2), comma)

/-- The key of an entry of a mapping pattern. -/
def patternKey (inner : Inner) : Rule (List Expr) := do
  match ← peek with
  | some (.name id) =>
    let line ← line
    skip
    guard (← sees (.mark "."))
    return [← dottedRest line (.name line id .load)]
  | _ => patternConstant inner

/-- A mapping pattern behind the opening brace, with the closing one: first its keys, then the
patterns of its values. -/
def mappingPattern (inner : Inner) (pattern : Rule (List Expr)) : Rule (List Expr) := do
  let entry (rest : Bool) : Rule (Bool × List Expr × List Expr) := do
    guard !rest
    if ← accept (.mark "**") then
      boundName
      return (true, [], [])
    else
      let key ← patternKey inner
      mark ":"
      return (false, key, ← pattern)
  if ← accept (.mark "\x7d") then return []
  let first ← entry false
  let all ← iterate (fun (rest, keys, values) => do
    if ← accept (.mark ",") then
      if ← sees (.mark "\x7d") then return none
      else
        let (rest, key, value) ← entry rest
        return some (rest, keys ++ key, values ++ value)
    else return none) first
  mark "\x7d"
  return all.2.1 ++ all.2.2

/-- A pattern without alternatives and without a name for the whole. -/
def closedPattern (inner : Inner) (pattern : Rule (List Expr)) : Rule (List Expr) := do
  let line ← line
  match ← peek with
  | some (.name id) =>
    skip
    guard (id ≠ "_" || !(← seesContinuation))
    let e ← dottedRest line (.name line id .load)
    if ← accept (.mark "(") then return e :: (← classPatterns pattern)
    else
      guard !(← seesContinuation)
      match e with
      | .name .. => return []
      | _ => return [e]
  | some (.mark "(") =>
    skip
    if ← accept (.mark ")") then return []
    let first ← sequenceItem pattern
    let (found, comma) ← sequenceRest pattern (fun l => l ≠ .mark ")") first
    guard (comma || !first.1)
    mark ")"
    return found
  | some (.mark "[") =>
    skip
    if ← accept (.mark "]") then return []
    let first ← sequenceItem pattern
    let (found, _) ← sequenceRest pattern (fun l => l ≠ .mark "]") first
    mark "]"
    return found
  | some (.mark "\x7b") =>
    skip
    mappingPattern inner pattern
  | _ => patternConstant inner

/-- Alternatives, and a name for the whole. -/
def wholePattern (inner : Inner) (pattern : Rule (List Expr)) : Rule (List Expr) := do
  let first ← closedPattern inner pattern
  let others ← many do
    if ← accept (.mark "|") then some <$> closedPattern inner pattern else return none
  if ← accept (.keyword "as") then boundName
  return first ++ others.flatten

/-- A pattern, nested at most as often as the fuel says. -/
def patternRule (inner : Inner) : Nat → Rule (List Expr)
  | 0 => failure
  | fuel + 1 => wholePattern inner (patternRule inner fuel)

/-- The pattern of a case, which may be a sequence without brackets. -/
def casePattern (inner : Inner) : Rule (List Expr) := do
  let pattern := patternRule inner ((← get).length + 1)
  let first ← sequenceItem pattern
  let more : Lexeme → Bool := fun l => l ≠ .mark ":" && l ≠ .keyword "if"
  let (found, comma) ← sequenceRest pattern more first
  guard (comma || !first.1)
  return found

end Deadwood.Source.Grammar
