import Deadwood.Source.Token

/-!
# Reading tokens

A grammar rule takes tokens off the front of a list, or fails. A rule that fails leaves the list as
it was, so that another one can be tried.

* `Rule` is the type of rules.
* `accept`, `expect`, `name` read single tokens.
* `iterate` repeats a rule as long as it can go on, `items` reads a list with commas between its
  items.
-/

namespace Deadwood.Source

/-- A grammar rule. -/
abbrev Rule (α : Type) := StateT (List Token) Option α

namespace Rule

/-- The lexeme of the next token. -/
def peek : Rule (Option Lexeme) := return (← get).head?.map (·.lexeme)

/-- The lexemes of the next two tokens. -/
def peekTwo : Rule (Option Lexeme × Option Lexeme) := do
  let tokens ← get
  return (tokens.head?.map (·.lexeme), (tokens.drop 1).head?.map (·.lexeme))

/-- Whether the next token is the given one. -/
def sees (l : Lexeme) : Rule Bool := return (← peek) == some l

/-- The line of the next token. -/
def line : Rule Nat := return ((← get).head?.map (·.line)).getD 0

/-- Passes over the next token. -/
def skip : Rule Unit := modify (·.drop 1)

/-- Takes the given token if it comes next. -/
def accept (l : Lexeme) : Rule Bool := do
  if ← sees l then
    skip
    return true
  else return false

/-- Takes the given token, which must come next. -/
def expect (l : Lexeme) : Rule Unit := do
  guard (← accept l)

/-- A mark that comes next. -/
def mark (m : String) : Rule Unit := expect (.mark m)

/-- A keyword that comes next. -/
def word (w : String) : Rule Unit := expect (.keyword w)

/-- A name. -/
def name : Rule String := do
  match ← peek with
  | some (.name id) =>
    skip
    return id
  | _ => failure

/-- Takes one of the given marks if it comes next. -/
def acceptAny (ms : List String) : Rule Bool := do
  match ← peek with
  | some (.mark m) =>
    if ms.contains m then
      skip
      return true
    else return false
  | _ => return false

/-- Repeats a rule on its own results at most `n` times, until it declines to go on. -/
def repeatFrom {α : Type} (step : α → Rule (Option α)) : Nat → α → Rule α
  | 0, a => return a
  | n + 1, a => do
    match ← step a with
    | some b => repeatFrom step n b
    | none => return a

/-- Repeats a rule on its own results until it declines to go on, once for every token at most. -/
def iterate {α : Type} (step : α → Rule (Option α)) (a : α) : Rule α := do
  repeatFrom step ((← get).length + 1) a

/-- The results of a rule that is repeated until it gives none. -/
def many {α : Type} (rule : Rule (Option α)) : Rule (List α) := do
  let found ← iterate (fun found => return (← rule).map (· :: found)) []
  return found.reverse

/-- The results of a rule that is repeated behind commas, as long as `more` holds of the token
behind the comma; whether there was a comma at all. -/
def commaSeparated {α : Type} (more : Lexeme → Bool) (item : Rule α) (first : α) :
    Rule (List α × Bool) := do
  let comma ← sees (.mark ",")
  let rest ← many do
    if ← accept (.mark ",") then
      match ← peek with
      | some l => if more l then some <$> item else return none
      | none => return none
    else return none
  return (first :: rest, comma)

/-- The results of a rule that is repeated at least once, with commas between. -/
def separated {α : Type} (item : Rule α) : Rule (List α) := do
  let first ← item
  let rest ← many do
    if ← accept (.mark ",") then some <$> item else return none
  return first :: rest

end Rule

end Deadwood.Source
