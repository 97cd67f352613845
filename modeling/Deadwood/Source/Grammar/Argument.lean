import Deadwood.Source.Grammar.Level

/-!
# The grammar of calls and subscripts

* `arguments` reads the arguments of a call or the bases of a class.
* `indices` reads what stands between the brackets of a subscript.
-/

namespace Deadwood.Source.Grammar

open Rule

/-- Arguments that are partly read: positional ones, values of keyword ones, and whether a keyword
or an unpacked mapping has been seen. -/
structure ArgumentList where
  positional : List Expr := []
  keywords : List Expr := []
  keyword : Bool := false
  unpacked : Bool := false

/-- One argument. -/
def argument (inner : Inner) (a : ArgumentList) : Rule ArgumentList := do
  if ← accept (.mark "*") then
    guard !a.unpacked
    return { a with positional := a.positional ++ [.starred (← inner .expression)] }
  else if ← accept (.mark "**") then
    return { a with
      keywords := a.keywords ++ [← inner .expression], keyword := true, unpacked := true }
  else match ← peekTwo with
    | (some (.name _), some (.mark "=")) =>
      skip
      skip
      return { a with keywords := a.keywords ++ [← inner .expression], keyword := true }
    | _ =>
      guard !a.keyword
      return { a with positional := a.positional ++ [← namedExpression inner] }

/-- The arguments of a call or class behind the opening bracket, with the closing one. Those of a
call may also be a single comprehension. -/
def arguments (comprehension : Bool) (inner : Inner) : Rule ArgumentList := do
  if ← accept (.mark ")") then return {}
  let first ← argument inner {}
  if comprehension && (← seesClause) then
    match first.positional, first.keywords with
    | [element], [] =>
      guard !element.isStarred
      let parts ← clauses inner
      mark ")"
      return { positional := [.compound .comprehension (element :: parts)] }
    | _, _ => failure
  else
    let all ← iterate (fun a => do
      if ← accept (.mark ",") then
        if ← sees (.mark ")") then return none else some <$> argument inner a
      else return none) first
    mark ")"
    return all

/-- Whether a bound of a slice may be missing before a lexeme. -/
def endsBound : Option Lexeme → Bool
  | some (.mark m) => [":", ",", "]"].contains m
  | _ => false

/-- A bound of a slice, if there is one. -/
def bound (inner : Inner) : Rule (List Expr) := do
  if endsBound (← peek) then return [] else return [← inner .expression]

/-- The bounds of a slice behind its lower one. -/
def sliceRest (inner : Inner) (lower : List Expr) : Rule Expr := do
  mark ":"
  let upper ← bound inner
  let step ← if ← accept (.mark ":") then bound inner else pure []
  return .compound .slice (lower ++ upper ++ step)

/-- An index: an expression, a slice or a starred expression. -/
def index (inner : Inner) : Rule Expr := do
  if ← accept (.mark "*") then return .starred (← inner .expression)
  else if ← sees (.mark ":") then sliceRest inner []
  else match ← peekTwo with
    | (some (.name _), some (.mark ":=")) => namedExpression inner
    | _ =>
      let e ← inner .expression
      if ← sees (.mark ":") then sliceRest inner [e] else return e

/-- The indices of a subscript behind the opening bracket, with the closing one. -/
def indices (inner : Inner) : Rule Expr := do
  let first ← index inner
  let (items, comma) ← commaSeparated (fun l => l ≠ .mark "]") (index inner) first
  mark "]"
  return if comma || first.isStarred then .tuple items else first

end Deadwood.Source.Grammar
