import Deadwood.Table
import Deadwood.Yaml.Token

/-!
# The nodes of a YAML document

A node is a scalar, a sequence or a mapping. Its kind may be given by a tag. A node with an anchor
may stand again where an alias names it.

* `Node` is the type of nodes.
* `document?` reads the only document of a list of tokens.
-/

namespace Deadwood.Yaml

/-- How the kind of a node is known. -/
inductive Tag where
  /-- From its text or its form. -/
  | implicit
  /-- The node is a text, being in quotes or a block. -/
  | quoted
  | named (name : String)
deriving Repr, DecidableEq, Inhabited

/-- A node of a document. -/
inductive Node where
  | scalar (tag : Tag) (text : String)
  | sequence (tag : Tag) (items : List Node)
  | mapping (tag : Tag) (pairs : List (Node × Node))
deriving Inhabited

/-- The tokens to be read, and the nodes with an anchor. -/
structure Reader where
  tokens : List Token
  anchors : Table String Node := ∅

/-- A rule reads tokens from the front. -/
abbrev Rule (α : Type) := StateT Reader Option α

namespace Rule

/-- The next token. -/
def peek? : Rule (Option Token) := do return (← get).tokens.head?

/-- Whether the next token is one of some, or there is none. -/
def seesAny (ts : List Token) : Rule Bool := do return (← peek?).all ts.contains

/-- Passes over the next token. -/
def skip : Rule Unit := modify fun r => { r with tokens := r.tokens.drop 1 }

/-- Passes over the next token if it is `t`, and says whether it did. -/
def accept (t : Token) : Rule Bool := do
  if (← peek?) = some t then
    skip
    return true
  return false

/-- Passes over the next token, which must be `t`. -/
def expect (t : Token) : Rule Unit := do
  if !(← accept t) then failure

end Rule

open Rule

/-- The node that stands where nothing is written. -/
def Node.empty : Node := .scalar .implicit ""

/-- What precedes a node: its anchor and its tag, each at most once. -/
def properties : Rule (Option String × Option TagText) := do
  let anchor : Rule (Option String) := do
    match ← peek? with
    | some (.anchor name) =>
      skip
      return some name
    | _ => return none
  let tag : Rule (Option TagText) := do
    match ← peek? with
    | some (.tag t) =>
      skip
      return some t
    | _ => return none
  match ← anchor with
  | some name => return (some name, ← tag)
  | none =>
    match ← tag with
    | some t => return (← anchor, some t)
    | none => return (none, none)

/-- The names behind the double exclamation mark have this in front. -/
def standardTag : String := "tag:yaml.org,2002:"

/-- The tag that a text gives, if its handle is known. -/
def TagText.tag? : TagText → Option Tag
  | .full "!" => some .implicit
  | .full name => some (.named name)
  | .named "!" name => some (.named ("!" ++ name))
  | .named "!!" name => some (.named (standardTag ++ name))
  | .named _ _ => none

/-- Keeps a node under its anchor, which must be new. -/
def remember (anchor : Option String) (n : Node) : Rule Node := do
  match anchor with
  | none => return n
  | some name =>
    if (← get).anchors.contains name then failure
    else
      modify fun r => { r with anchors := r.anchors.insert name n }
      return n

/-- Reads a node unless one of the given tokens is next, where nothing is written. -/
def orEmpty (ends : List Token) (rule : Rule Node) : Rule Node := do
  if ← seesAny ends then return .empty else rule

/-- The items of a block, each behind a dash. -/
def blockItems (node : Rule Node) (ends : List Token) : Nat → Rule (List Node)
  | 0 => failure
  | fuel + 1 => do
    if ← accept .entry then
      let item ← orEmpty ends node
      return item :: (← blockItems node ends fuel)
    else return []

/-- The keys and values of a block. -/
def blockPairs (node : Rule Node) : Nat → Rule (List (Node × Node))
  | 0 => failure
  | fuel + 1 => do
    if ← accept .key then
      let ends := [.key, .value, .blockEnd]
      let key ← orEmpty ends node
      let value ← if ← accept .value then orEmpty ends node else pure .empty
      return (key, value) :: (← blockPairs node fuel)
    else return []

/-- The value of a pair inside of brackets, if a colon is there. -/
def flowValue (node : Rule Node) (close : Token) : Rule Node := do
  if ← accept .value then orEmpty [.comma, close] node else return .empty

/-- The key and the value of a marked pair inside of brackets. -/
def flowPair (node : Rule Node) (close : Token) : Rule (Node × Node) := do
  let key ← orEmpty [.value, .comma, close] node
  return (key, ← flowValue node close)

/-- Things inside of brackets, with commas between, up to the closing bracket. -/
def flowItems {α : Type} (item : Rule α) (close : Token) (first : Bool) : Nat → Rule (List α)
  | 0 => failure
  | fuel + 1 => do
    if ← accept close then return []
    if !first then expect .comma
    if ← accept close then return []
    let x ← item
    return x :: (← flowItems item close false fuel)

/-- An item of a sequence in brackets: a node, or a pair, which is a mapping of its own. -/
def flowItem (node : Rule Node) : Rule Node := do
  if ← accept .key then return .mapping .implicit [← flowPair node .closeSequence] else node

/-- A pair of a mapping in brackets; a node alone is a key without a value. -/
def flowField (node : Rule Node) : Rule (Node × Node) := do
  if ← accept .key then flowPair node .closeMapping else return (← node, .empty)

/-- Where a node stands. -/
inductive Context where
  /-- Inside of brackets. -/
  | flow
  /-- In a block. -/
  | block
  /-- The key or the value of a block, where a sequence need not be indented. -/
  | field
deriving Repr, DecidableEq

/-- The content of a node; `given` is `none` if no tag precedes it, `bare` says that no anchor does
either. -/
def content (node : Context → Rule Node) (fuel : Nat) (context : Context) (given : Option Tag)
    (bare : Bool) : Rule Node := do
  let tag := given.getD .implicit
  match ← peek? with
  | some .entry =>
    if context = .field then
      return .sequence tag
        (← blockItems (node .block) [.entry, .key, .value, .blockEnd] fuel)
    else absent
  | some (.scalar text isPlain) =>
    skip
    return .scalar (given.getD (if isPlain then .implicit else .quoted)) text
  | some .openSequence =>
    skip
    return .sequence tag (← flowItems (flowItem (node .flow)) .closeSequence true fuel)
  | some .openMapping =>
    skip
    return .mapping tag (← flowItems (flowField (node .flow)) .closeMapping true fuel)
  | some .blockSequence =>
    if context = .flow then absent
    else
      skip
      let items ← blockItems (node .block) [.entry, .blockEnd] fuel
      expect .blockEnd
      return .sequence tag items
  | some .blockMapping =>
    if context = .flow then absent
    else
      skip
      let pairs ← blockPairs (node .field) fuel
      expect .blockEnd
      return .mapping tag pairs
  | _ => absent
where
  /-- Where nothing is written, an anchor or a tag must announce the node. -/
  absent : Rule Node := if bare then failure else return .scalar (given.getD .implicit) ""

/-- A node, read with fuel for its depth and length. -/
def node : Nat → Context → Rule Node
  | 0, _ => failure
  | fuel + 1, context => do
    if let some (.alias name) ← peek? then
      skip
      match (← get).anchors.find? name with
      | some n => return n
      | none => failure
    let (anchor, tagText) ← properties
    let given ← match tagText with
      | none => pure none
      | some t => some <$> StateT.lift t.tag?
    let n ← content (node fuel) fuel context given (anchor.isNone && given.isNone)
    remember anchor n

/-- The lines in front of a document: each concerns the version, which is given at most once. -/
def directives : Rule Bool := do
  if ← accept .directive then
    if ← accept .directive then failure
    return true
  else return false

/-- Marks for the end of a document. -/
def documentEnds : Nat → Rule Unit
  | 0 => failure
  | fuel + 1 => do
    if ← accept .documentEnd then documentEnds fuel

/-- The only document, if there is one. -/
def documentRule (fuel : Nat) : Rule (Option Node) := do
  if (← peek?).isNone then return none
  let announced ← directives
  let n ← if ← accept .documentStart then
      orEmpty [.directive, .documentStart, .documentEnd] (node fuel .block)
    else if announced then failure
    else node fuel .block
  documentEnds fuel
  if (← peek?).isSome then failure
  return some n

/-- The only document of a list of tokens, if there is one. -/
def document? (tokens : List Token) : Option (Option Node) :=
  ((documentRule (tokens.length + 1)).run ⟨tokens, ∅⟩).map (·.1)

end Deadwood.Yaml
