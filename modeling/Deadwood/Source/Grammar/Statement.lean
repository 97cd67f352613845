import Deadwood.Source.Grammar.Case

/-!
# The grammar of statements

A module is a list of statements. Simple statements stand on one line, with semicolons between them;
the others hold blocks. Every rule for a statement with blocks is given the rule for a block;
`statementRule` ties them together and may be nested as often as its fuel says.

* `simpleLine` reads the simple statements of a line, `blockStatement` the others.
* `module?` reads the statements of a whole module.
-/

namespace Deadwood.Source.Grammar

open Rule

/-! ## Simple statements -/

/-- The operators that change a place. -/
def augmentations : List String :=
  ["+=", "-=", "*=", "@=", "/=", "%=", "&=", "|=", "^=", "<<=", ">>=", "**=", "//="]

/-- A value that is there or not. -/
def ofOption {α : Type} (a : Option α) : Rule α := a.elim failure pure

/-- What follows the first place of an assignment: the other places and the value. -/
def assignment (inner : Inner) (first : Expr) : Rule Stmt := do
  let (places, value) ← iterate (fun (places, value) => do
    if ← accept (.mark "=") then
      let place ← ofOption (Expr.target? true value)
      return some (places ++ [place], ← yieldOrExpressions inner)
    else return none) ([], first)
  return .assign places value

/-- A statement that begins with an expression: an assignment, a declaration, or the expression. -/
def expressionStatement (inner : Inner) : Rule Stmt := do
  if ← sees (.keyword "yield") then return .evaluate (← yieldExpression inner)
  let first ← starExpressions inner
  if ← sees (.mark "=") then assignment inner first
  else if ← accept (.mark ":") then
    let place ← ofOption first.singleTarget?
    let hint ← inner .expression
    let value ← if ← accept (.mark "=") then some <$> yieldOrExpressions inner else pure none
    return .declare place hint value
  else if ← acceptAny augmentations then
    let place ← ofOption first.singleTarget?
    return .augment place (← yieldOrExpressions inner)
  else return .evaluate first

/-- A dotted name. -/
def dottedName : Rule String := do
  let first ← name
  iterate (fun s => do
    if ← accept (.mark ".") then return some (s ++ "." ++ (← name)) else return none) first

/-- The new name of an import, if there is one. -/
def newName : Rule (Option String) := do
  if ← accept (.keyword "as") then some <$> name else return none

/-- One name that is imported from a module. -/
def importedName : Rule Import := do
  let id ← name
  return ⟨id, ← newName⟩

/-- The names that are imported from a module. -/
def importedNames : Rule (List Import) := do
  if ← accept (.mark "*") then return [⟨"*", none⟩]
  else if ← accept (.mark "(") then
    let first ← importedName
    let (names, _) ← commaSeparated (fun l => l ≠ .mark ")") importedName first
    mark ")"
    return names
  else separated importedName

/-- The dots in front of the name of a module. -/
def leadingDots : Rule Nat :=
  iterate (fun n => do
    if ← accept (.mark ".") then return some (n + 1)
    else if ← accept (.mark "...") then return some (n + 3)
    else return none) 0

/-- An import from a module, behind its first word. -/
def importFromStatement : Rule Stmt := do
  let level ← leadingDots
  let module ← if level > 0 && (← sees (.keyword "import")) then pure "" else dottedName
  word "import"
  return .importFrom level module (← importedNames)

/-- An import of modules, behind its first word. -/
def importStatement : Rule Stmt := do
  let names ← separated do
    let id ← dottedName
    return (⟨id, ← newName⟩ : Import)
  return .importModules names

/-- An expression behind a word, if the word is there. -/
def optional (l : Lexeme) (rule : Rule Expr) : Rule (List Expr) := do
  if ← accept l then return [← rule] else return []

/-- A statement that stands on one line. -/
def simpleStatement (inner : Inner) : Rule Stmt := do
  match ← peek with
  | some (.keyword w) =>
    match w with
    | "pass" | "break" | "continue" =>
      skip
      return .simple []
    | "return" =>
      skip
      match ← peek with
      | some l =>
        if beginsExpression l then return .simple [← starExpressions inner] else return .simple []
      | none => return .simple []
    | "import" =>
      skip
      importStatement
    | "from" =>
      skip
      importFromStatement
    | "raise" =>
      skip
      match ← peek with
      | some l =>
        if beginsExpression l then
          let e ← inner .expression
          return .simple (e :: (← optional (.keyword "from") (inner .expression)))
        else return .simple []
      | none => return .simple []
    | "assert" =>
      skip
      let e ← inner .expression
      return .simple (e :: (← optional (.mark ",") (inner .expression)))
    | "del" =>
      skip
      let e ← starExpressions inner
      return .simple [← ofOption (e.target? false)]
    | "global" | "nonlocal" =>
      skip
      discard (separated name)
      return .simple []
    | _ => expressionStatement inner
  | _ => expressionStatement inner

/-- The simple statements of a line, with its end. -/
def simpleLine (inner : Inner) : Rule (List Stmt) := do
  let first ← simpleStatement inner
  let rest ← many do
    if ← accept (.mark ";") then
      if ← sees .newline then return none else some <$> simpleStatement inner
    else return none
  expect .newline
  return first :: rest

/-! ## Statements with blocks -/

/-- A block: either indented lines or simple statements on the same line. -/
def block (inner : Inner) (statement : Rule (List Stmt)) : Rule (List Stmt) := do
  mark ":"
  if ← accept .newline then
    expect .indent
    let first ← statement
    let rest ← many do
      if ← sees .dedent then return none else some <$> statement
    expect .dedent
    return first ++ rest.flatten
  else simpleLine inner

/-- A clause with a word in front, if the word is there. -/
def elseClause (w : String) (body : Rule (List Stmt)) : Rule (List Clause) := do
  if ← accept (.keyword w) then return [.mk [] (← body)] else return []

/-- The branches behind the first word of a conditional. -/
def branches (inner : Inner) (body : Rule (List Stmt)) : Rule Stmt := do
  let test ← namedExpression inner
  let first ← body
  let others ← many do
    if ← accept (.keyword "elif") then
      let test ← namedExpression inner
      return some (Clause.mk [test] (← body))
    else return none
  return .block .branch (.mk [test] first :: others ++ (← elseClause "else" body))

/-- A loop over items, behind its first word. -/
def forLoop (inner : Inner) (body : Rule (List Stmt)) : Rule Stmt := do
  let place ← targets inner
  word "in"
  let source ← starExpressions inner
  let first ← body
  return .block .loop (.mk [place, source] first :: (← elseClause "else" body))

/-- A loop with a condition, behind its first word. -/
def whileLoop (inner : Inner) (body : Rule (List Stmt)) : Rule Stmt := do
  let test ← namedExpression inner
  let first ← body
  return .block .loop (.mk [test] first :: (← elseClause "else" body))

/-- A resource and the place that gets it, if there is one. -/
def resource (inner : Inner) : Rule (List Expr) := do
  let e ← inner .expression
  return e :: (← optional (.keyword "as") (starTarget inner))

/-- A statement with resources, behind its first word; the resources may stand in parentheses. -/
def resources (inner : Inner) (body : Rule (List Stmt)) : Rule Stmt := do
  let header ← (do
    mark "("
    let first ← resource inner
    let (found, _) ← commaSeparated (fun l => l ≠ .mark ")") (resource inner) first
    mark ")"
    guard (← sees (.mark ":"))
    return found) <|> separated (resource inner)
  return .block .resource [.mk header.flatten (← body)]

/-- A handler of exceptions, or of groups of them, behind its first word. -/
def handler (group : Bool) (inner : Inner) (body : Rule (List Stmt)) : Rule Clause := do
  if group then mark "*"
  if !group && (← sees (.mark ":")) then return .mk [] (← body)
  else
    let e ← inner .expression
    discard newName
    return .mk [e] (← body)

/-- An attempt, behind its first word: handlers and what follows them, or only a final block. -/
def attempt (inner : Inner) (body : Rule (List Stmt)) : Rule Stmt := do
  let first ← body
  let group ← match ← peekTwo with
    | (some (.keyword "except"), some (.mark "*")) => pure true
    | _ => pure false
  let handlers ← many do
    if ← accept (.keyword "except") then some <$> handler group inner body else return none
  let otherwise ← if handlers.isEmpty then pure [] else elseClause "else" body
  let final ← elseClause "finally" body
  guard !(handlers.isEmpty && final.isEmpty)
  return .block .attempt (.mk [] first :: handlers ++ otherwise ++ final)

/-- A function, behind its first word. -/
def functionDefinition (line : Nat) (decorators : List Expr) (inner : Inner)
    (body : Rule (List Stmt)) : Rule Stmt := do
  let id ← name
  mark "("
  let p ← parameters true ")" inner
  mark ")"
  let result ← optional (.mark "->") (inner .expression)
  return .function line id { p with hints := p.hints ++ result } decorators (← body)

/-- A class, behind its first word. -/
def classDefinition (line : Nat) (decorators : List Expr) (inner : Inner)
    (body : Rule (List Stmt)) : Rule Stmt := do
  let id ← name
  let a ← if ← accept (.mark "(") then arguments false inner else pure {}
  return .classDef line id a.positional a.keywords decorators (← body)

/-- A definition and the decorators in front of it. -/
def definition (decorators : List Expr) (inner : Inner) (body : Rule (List Stmt)) : Rule Stmt := do
  let line ← line
  if ← accept (.keyword "class") then classDefinition line decorators inner body
  else
    discard (accept (.keyword "async"))
    word "def"
    functionDefinition line decorators inner body

/-- The decorators in front of a definition, and the definition. -/
def decorated (inner : Inner) (body : Rule (List Stmt)) : Rule Stmt := do
  let decorators ← many do
    if ← accept (.mark "@") then
      let e ← namedExpression inner
      expect .newline
      return some e
    else return none
  definition decorators inner body

/-- The subject of a match. -/
def subject (inner : Inner) : Rule Expr := do
  let first ← displayItem inner
  let (items, comma) ← commaSeparated beginsExpression (displayItem inner) first
  guard (comma || !first.isStarred)
  return if comma then .tuple items else first

/-- A case of a match, if one comes next. -/
def caseClause (inner : Inner) (body : Rule (List Stmt)) : Rule (Option Clause) := do
  if ← accept (.name "case") then
    let found ← casePattern inner
    let condition ← optional (.keyword "if") (namedExpression inner)
    return some (.mk (found ++ condition) (← body))
  else return none

/-- A match. -/
def matchStatement (inner : Inner) (body : Rule (List Stmt)) : Rule Stmt := do
  expect (.name "match")
  let e ← subject inner
  mark ":"
  expect .newline
  expect .indent
  let cases ← many (caseClause inner body)
  guard !cases.isEmpty
  expect .dedent
  return .block .select (.mk [e] [] :: cases)

/-- One statement, or the simple statements of one line. -/
def anyStatement (inner : Inner) (body : Rule (List Stmt)) : Rule (List Stmt) := do
  let one (rule : Rule Stmt) : Rule (List Stmt) := return [← rule]
  match ← peekTwo with
  | (some (.keyword w), second) =>
    match w with
    | "if" => skip; one (branches inner body)
    | "while" => skip; one (whileLoop inner body)
    | "for" => skip; one (forLoop inner body)
    | "try" => skip; one (attempt inner body)
    | "with" => skip; one (resources inner body)
    | "def" | "class" => one (definition [] inner body)
    | "async" =>
      match second with
      | some (.keyword "for") => skip; skip; one (forLoop inner body)
      | some (.keyword "with") => skip; skip; one (resources inner body)
      | _ => one (definition [] inner body)
    | _ => simpleLine inner
  | (some (.mark "@"), _) => one (decorated inner body)
  | (some (.name "match"), _) => one (matchStatement inner body) <|> simpleLine inner
  | _ => simpleLine inner

/-- One statement, its blocks being nested at most as often as the fuel says. -/
def statementRule (inner : Inner) : Nat → Rule (List Stmt)
  | 0 => failure
  | fuel + 1 => anyStatement inner (block inner (statementRule inner fuel))

/-- The statements of a module. -/
def module? (inner : Inner) (tokens : List Token) : Option (List Stmt) := do
  let rule : Rule (List Stmt) := do
    let found ← many do
      if (← get).isEmpty then return none else some <$> statementRule inner (maxBlocks + 2)
    return found.flatten
  let (found, rest) ← rule.run tokens
  guard rest.isEmpty
  return found

end Deadwood.Source.Grammar
