import Deadwood.Source.Grammar.Level

/-!
# The grammar of parameters

`parameters` reads the parameters of a function, with annotations or without. Positional parameters
come first, then those that are given by name, and one that takes all further names ends the list.
-/

namespace Deadwood.Source.Grammar

open Rule

/-- Which kind of parameters may come next. -/
inductive Stage where
  | positional
  /-- Keyword parameters; whether at least one must follow. -/
  | keyword (required : Bool)
  | finished
deriving Repr, DecidableEq

/-- Parameters that are partly read. -/
structure ParameterList where
  found : Parameters := {}
  stage : Stage := .positional
  /-- Whether the parameters so far have been marked as positional only. -/
  slash : Bool := false

/-- An annotation, if annotations are allowed and there is one. -/
def annotation (annotated star : Bool) (inner : Inner) : Rule (List Expr) := do
  if annotated then
    if ← accept (.mark ":") then
      let hint ← if star then starExpression inner else inner .expression
      return [hint]
    else return []
  else return []

/-- Parameters with further annotations. -/
def ParameterList.annotate (p : ParameterList) (hints : List Expr) : ParameterList :=
  { p with found := { p.found with hints := p.found.hints ++ hints } }

/-- One parameter, or one of the marks between them. -/
def parameter (annotated : Bool) (inner : Inner) (p : ParameterList) : Rule ParameterList := do
  if ← accept (.mark "/") then
    guard (p.stage = .positional && !p.slash && !p.found.positional.isEmpty)
    return { p with slash := true }
  else if ← accept (.mark "**") then
    guard (p.stage = .positional || p.stage = .keyword false)
    discard name
    let hints ← annotation annotated false inner
    return { p.annotate hints with stage := .finished }
  else if ← accept (.mark "*") then
    guard (p.stage = .positional)
    if ← sees (.mark ",") then return { p with stage := .keyword true }
    else
      discard name
      let hints ← annotation annotated true inner
      return { p.annotate hints with stage := .keyword false }
  else
    let id ← name
    let hints ← annotation annotated false inner
    let p := p.annotate hints
    let given ← if ← accept (.mark "=") then some <$> inner .expression else pure none
    match p.stage with
    | .positional =>
      guard (given.isSome || p.found.defaults.isEmpty)
      return { p with found := { p.found with
        positional := p.found.positional ++ [id]
        defaults := p.found.defaults ++ given.toList } }
    | .keyword _ =>
      return { p with
        found := { p.found with keywordDefaults := p.found.keywordDefaults ++ given.toList }
        stage := .keyword false }
    | .finished => failure

/-- The parameters of a function up to the mark that ends them, which is left. -/
def parameters (annotated : Bool) (closing : String) (inner : Inner) : Rule Parameters := do
  if ← sees (.mark closing) then return {}
  let first ← parameter annotated inner {}
  let all ← iterate (fun p => do
    if ← accept (.mark ",") then
      if ← sees (.mark closing) then return none
      else some <$> parameter annotated inner p
    else return none) first
  guard (all.stage ≠ .keyword true)
  guard (← sees (.mark closing))
  return all.found

end Deadwood.Source.Grammar
