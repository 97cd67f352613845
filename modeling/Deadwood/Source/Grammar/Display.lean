import Deadwood.Source.Grammar.Level
import Deadwood.Source.Literal
import Deadwood.Source.Token.Scan

/-!
# The grammar of literals and displays

* `literals` reads texts that stand side by side, and the expressions in their replacement fields.
* `parenthesised`, `bracketed` and `braced` read what an opening bracket begins: an expression, a
  display or a comprehension.
-/

namespace Deadwood.Source.Grammar

open Rule

/-- The expression of a replacement field, read from its text. -/
def fieldExpression (inner : Inner) (line : Nat) (text : List Char) : Option Expr := do
  let tokens ← tokens? line ('(' :: text ++ [')', '\n'])
  let (e, rest) ← (inner .expression).run tokens
  guard (rest.map (·.lexeme) = [.newline])
  return e

mutual

/-- The expressions of the pieces of a formatted literal. -/
def pieceExpressions (inner : Inner) : List Piece → Option (List Expr)
  | [] => some []
  | p :: rest => do return (← pieceExpression inner p) ++ (← pieceExpressions inner rest)

/-- The expression of a piece of a formatted literal, if it has one. -/
def pieceExpression (inner : Inner) : Piece → Option (List Expr)
  | .plain _ => some []
  | .field text line none => do return [.compound .formatted [← fieldExpression inner line text]]
  | .field text line (some format) => do
    let value ← fieldExpression inner line text
    return [.compound .formatted [value, .compound .joined (← pieceExpressions inner format)]]

end

/-- The text of a literal without replacement fields. -/
def plainLiteral? : Quotation × Nat × List Char → Option String
  | (form, _, body) =>
    if form.bytes then if isByteText form.raw body then some "" else none
    else (unescape? form.raw body).map String.ofList

/-- The expressions in a literal. -/
def literalParts (inner : Inner) : Quotation × Nat × List Char → Option (List Expr)
  | (form, line, body) =>
    if form.formatted then pieces? form.raw line body >>= pieceExpressions inner
    else (plainLiteral? (form, line, body)).map fun _ => []

/-- Adjacent text literals, which count as one; either all or none are byte sequences. -/
def literals (inner : Inner) : Rule Expr := do
  let found ← many do
    let line ← line
    match ← peek with
    | some (.quote form body) =>
      skip
      return some (form, line, body)
    | _ => return none
  guard !found.isEmpty
  if found.any (·.1.formatted) then
    guard (found.all fun l => !l.1.bytes)
    let parts ← (found.mapM (literalParts inner)).elim failure pure
    return .compound .joined parts.flatten
  else
    let texts ← (found.mapM plainLiteral?).elim failure pure
    if found.all (·.1.bytes) then return .constant
    guard (found.all fun l => !l.1.bytes)
    return .text (String.join texts)

/-- What follows the first item of a display, up to the closing mark. -/
def display (inner : Inner) (closing : String) (first : Expr) : Rule (List Expr × Bool) := do
  let found ← commaSeparated (fun l => l ≠ .mark closing) (displayItem inner) first
  mark closing
  return found

/-- Behind an opening parenthesis: a tuple, a comprehension, or an expression in parentheses. -/
def parenthesised (inner : Inner) : Rule Expr := do
  if ← accept (.mark ")") then return .tuple []
  else if ← sees (.keyword "yield") then
    let e ← yieldExpression inner
    mark ")"
    return e
  else
    let first ← displayItem inner
    if ← seesClause then
      guard !first.isStarred
      let parts ← clauses inner
      mark ")"
      return .compound .comprehension (first :: parts)
    else
      let (items, comma) ← display inner ")" first
      if comma then return .tuple items
      else
        guard !first.isStarred
        return first

/-- Behind an opening bracket: a list or a comprehension. -/
def bracketed (inner : Inner) : Rule Expr := do
  if ← accept (.mark "]") then return .list []
  else
    let first ← displayItem inner
    if ← seesClause then
      guard !first.isStarred
      let parts ← clauses inner
      mark "]"
      return .compound .comprehension (first :: parts)
    else return .list (← display inner "]" first).1

/-- An entry of a dictionary: its key, unless it is an unpacked mapping, and its value. -/
def dictEntry (inner : Inner) : Rule (List Expr × Expr) := do
  if ← accept (.mark "**") then return ([], ← inner .operand)
  else
    let key ← inner .expression
    mark ":"
    return ([key], ← inner .expression)

/-- What follows the first entry of a dictionary. -/
def dictRest (inner : Inner) (first : List Expr × Expr) : Rule Expr := do
  let (entries, _) ← commaSeparated (fun l => l ≠ .mark "\x7d") (dictEntry inner) first
  mark "\x7d"
  return .compound .dict (entries.flatMap (·.1) ++ entries.map (·.2))

/-- What follows the first item of a set. -/
def setRest (inner : Inner) (first : Expr) : Rule Expr := do
  if ← seesClause then
    guard !first.isStarred
    let parts ← clauses inner
    mark "\x7d"
    return .compound .comprehension (first :: parts)
  else return .set (← display inner "\x7d" first).1

/-- Behind an opening brace: a dictionary, a set or a comprehension. -/
def braced (inner : Inner) : Rule Expr := do
  if ← accept (.mark "\x7d") then return .compound .dict []
  else if ← sees (.mark "**") then dictRest inner (← dictEntry inner)
  else match ← peekTwo with
    | (some (.mark "*"), _) => setRest inner (← displayItem inner)
    | (some (.name _), some (.mark ":=")) => setRest inner (← displayItem inner)
    | _ =>
      let first ← inner .expression
      if ← accept (.mark ":") then
        let value ← inner .expression
        if ← seesClause then
          let parts ← clauses inner
          mark "\x7d"
          return .compound .comprehension (first :: value :: parts)
        else dictRest inner ([first], value)
      else setRest inner first

end Deadwood.Source.Grammar
