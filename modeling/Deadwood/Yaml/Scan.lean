import Deadwood.Yaml.Scalar
import Deadwood.Yaml.Token

/-!
# Cutting a YAML text into tokens

The text is read from the front. Indentation opens and closes blocks. A key need not be marked: what
may be one is noted when it begins, and the colon behind it makes it one. Found keys are kept apart
and put into their places at the end, so that tokens are only ever appended.

* `Scanner` is the state of reading, `Scanner.step?` reads one token.
* `Scanner.laidOut` puts the found keys into their places.
* `tokens?` gives the tokens of a text.
-/

namespace Deadwood.Yaml

/-- Something that is a key if a colon follows. -/
structure PossibleKey where
  /-- The number of tokens in front of it. -/
  place : Nat
  /-- Whether nothing but a key can stand there. -/
  required : Bool
  start : Cursor
deriving Repr, Inhabited

/-- A key without a mark, known by its colon. -/
structure FoundKey where
  /-- The number of tokens in front of it. -/
  place : Nat
  /-- Whether a block of keys and values begins with it. -/
  opensBlock : Bool
deriving Repr, Inhabited

/-- The state of reading. -/
structure Scanner where
  here : Cursor
  /-- The tokens read, the last one first. -/
  tokens : List Token := []
  found : List FoundKey := []
  /-- The columns of the open blocks, the innermost first. -/
  blocks : List Nat := []
  /-- What may be a key at this level of brackets. -/
  pending : Option PossibleKey := none
  /-- The same for the levels outside of the innermost brackets. -/
  outer : List (Option PossibleKey) := []
  /-- Whether a key may begin here. -/
  mayBeKey : Bool := true
deriving Inhabited

namespace Scanner

/-- The column of the innermost block. -/
def indent (s : Scanner) : Int :=
  match s.blocks with
  | [] => -1
  | column :: _ => column

/-- Whether brackets are open. -/
def inFlow (s : Scanner) : Bool := !s.outer.isEmpty

/-- Appends a token. -/
def emit (s : Scanner) (t : Token) : Scanner := { s with tokens := t :: s.tokens }

/-- Moves on. -/
def moveTo (s : Scanner) (c : Cursor) : Scanner := { s with here := c }

/-! ## Possible keys -/

/-- Forgets what may be a key here, unless it has to be one. -/
def dropPending? (s : Scanner) : Option Scanner :=
  if s.pending.any (·.required) then none else some { s with pending := none }

/-- Whether a key can still end here: on its first line and within 1024 characters. -/
def PossibleKey.isFresh (c : Cursor) (k : PossibleKey) : Bool :=
  k.start.line = c.line && c.index - k.start.index ≤ 1024

/-- Forgets all that began too long ago to be a key. -/
def dropStale? (s : Scanner) : Option Scanner :=
  let stale (k : Option PossibleKey) : Bool := k.any fun k => !PossibleKey.isFresh s.here k
  if (s.pending :: s.outer).any fun k => stale k && k.any (·.required) then none
  else some { s with
    pending := if stale s.pending then none else s.pending
    outer := s.outer.map fun k => if stale k then none else k }

/-- Notes that a key may begin here. -/
def noteKey? (s : Scanner) : Option Scanner :=
  if s.mayBeKey then do
    let s ← s.dropPending?
    pure { s with pending := some {
      place := s.tokens.length, start := s.here
      required := !s.inFlow && s.indent = s.here.column } }
  else some s

/-! ## Blocks -/

/-- Closes the blocks that are indented by more than `column`, the innermost first. -/
def closeBlocks (column : Int) : List Nat → List Token → List Nat × List Token
  | [], tokens => ([], tokens)
  | b :: blocks, tokens =>
    if (b : Int) > column then closeBlocks column blocks (.blockEnd :: tokens)
      else (b :: blocks, tokens)

/-- Closes the blocks that are indented by more than `column`; inside of brackets there are none. -/
def unwind (s : Scanner) (column : Int) : Scanner :=
  if s.inFlow then s
  else
    let (blocks, tokens) := closeBlocks column s.blocks s.tokens
    { s with blocks, tokens }

/-- Opens a block at a column if that is further in; says whether it did. -/
def indentTo (s : Scanner) (column : Nat) : Bool × Scanner :=
  if s.indent < column then (true, { s with blocks := column :: s.blocks }) else (false, s)

/-- Opens a block at the position, if it is further in, with its token. -/
def openBlock (s : Scanner) (t : Token) : Scanner :=
  let (opened, s) := s.indentTo s.here.column
  if opened then s.emit t else s

/-! ## Single tokens -/

/-- A mark for the begin or the end of a document. -/
def documentMark? (s : Scanner) (t : Token) : Option Scanner := do
  let s ← (s.unwind (-1)).dropPending?
  pure (({ s with mayBeKey := false }.emit t).moveTo (s.here.skip 3))

/-- The version that a directive may give: the first number must be one. -/
def version? (c : Cursor) : Option Cursor :=
  let (major, c) := (c.dropWhile (· = ' ')).takeWhile Char.isDigit
  if major ≠ ['1'] || !c.sees '.' then none
  else
    let (minor, c) := c.next.takeWhile Char.isDigit
    if minor.isEmpty || !isStop c.rest.head? then none else some c

/-- A line that concerns the whole document. -/
def directive? (s : Scanner) : Option Scanner := do
  let s ← (s.unwind (-1)).dropPending?
  let (name, c) := s.here.next.takeWhile fun x => x.isAlphanum || x = '-' || x = '_'
  if name.isEmpty || !isStop c.rest.head? || name = "TAG".toList then none
  else
    let c ← if name = "YAML".toList then version? c else some (c.dropWhile (!isBreak ·))
    pure (({ s with mayBeKey := false }.emit .directive).moveTo (← blankLine? c))

/-- An opening bracket. -/
def openFlow? (s : Scanner) (t : Token) : Option Scanner := do
  let s ← s.noteKey?
  pure (({ s with outer := s.pending :: s.outer, pending := none, mayBeKey := true }.emit t).moveTo
    s.here.next)

/-- A closing bracket. -/
def closeFlow? (s : Scanner) (t : Token) : Option Scanner := do
  let s ← s.dropPending?
  match s.outer with
  | [] => none
  | k :: outer =>
    pure (({ s with outer, pending := k, mayBeKey := false }.emit t).moveTo s.here.next)

/-- A comma. -/
def comma? (s : Scanner) : Option Scanner := do
  let s ← { s with mayBeKey := true }.dropPending?
  pure ((s.emit .comma).moveTo s.here.next)

/-- The dash in front of an item. -/
def entry? (s : Scanner) : Option Scanner := do
  if !s.inFlow && !s.mayBeKey then none
  else
    let s := if s.inFlow then s else s.openBlock .blockSequence
    let s ← { s with mayBeKey := true }.dropPending?
    pure ((s.emit .entry).moveTo s.here.next)

/-- The mark of a key. -/
def key? (s : Scanner) : Option Scanner := do
  if !s.inFlow && !s.mayBeKey then none
  else
    let s := if s.inFlow then s else s.openBlock .blockMapping
    let s ← { s with mayBeKey := !s.inFlow }.dropPending?
    pure ((s.emit .key).moveTo s.here.next)

/-- The colon in front of a value. -/
def value? (s : Scanner) : Option Scanner := do
  match s.pending with
  | some k =>
    let (opensBlock, s) := if s.inFlow then (false, s) else s.indentTo k.start.column
    let s := { s with
      found := ⟨k.place, opensBlock⟩ :: s.found, pending := none, mayBeKey := false }
    pure ((s.emit .value).moveTo s.here.next)
  | none =>
    if !s.inFlow && !s.mayBeKey then none
    else
      let s := if s.inFlow then s else s.openBlock .blockMapping
      pure (({ s with mayBeKey := !s.inFlow }.emit .value).moveTo s.here.next)

/-- The name of an anchor, behind its indicator. -/
def anchorName? (c : Cursor) : Option (String × Cursor) :=
  let (name, c) := c.takeWhile fun x => x.isAlphanum || x = '-' || x = '_'
  if name.isEmpty || !(isGap c.rest.head? || c.rest.head?.any ("?:,]\x7d%@`".toList.contains ·))
    then none
  else some (.ofList name, c)

/-- An anchor or an alias. -/
def anchor? (s : Scanner) (t : String → Token) : Option Scanner := do
  let s ← s.noteKey?
  let (name, c) ← anchorName? s.here.next
  pure (({ s with mayBeKey := false }.emit (t name)).moveTo c)

/-- Whether a character may stand in the name of a kind. -/
def isTagChar (x : Char) : Bool := x.isAlphanum || "-;/?:@&=+$,_.!~*'()[]%".toList.contains x

/-- The text that gives the kind of a node. -/
def tagText? (c : Cursor) : Option (TagText × Cursor) :=
  match c.peek 1 with
  | some '<' =>
    let (name, c) := (c.skip 2).takeWhile isTagChar
    if name.isEmpty || !c.sees '>' then none else some (.full (.ofList name), c.next)
  | x =>
    if isGap x then some (.full "!", c.next)
    else
      let word := c.next.rest.takeWhile fun y => y ≠ ' ' && !isBreak y
      let (handle, c) := if word.contains '!' then
          let inner := c.next.rest.takeWhile fun y => y.isAlphanum || y = '-' || y = '_'
          (['!'] ++ inner ++ ['!'], c.skip (inner.length + 2))
        else (['!'], c.next)
      let (name, c) := c.takeWhile isTagChar
      if name.isEmpty then none else some (.named (.ofList handle) (.ofList name), c)

/-- The kind of a node. -/
def tag? (s : Scanner) : Option Scanner := do
  let s ← s.noteKey?
  let (t, c) ← tagText? s.here
  if isStop c.rest.head? then pure (({ s with mayBeKey := false }.emit (.tag t)).moveTo c) else none

/-- A block of lines. -/
def blockScalar? (s : Scanner) : Option Scanner := do
  let s ← { s with mayBeKey := true }.dropPending?
  let (text, c) ← block? s.indent s.here
  pure ((s.emit (.scalar (.ofList text) false)).moveTo c)

/-- A scalar in quotes. -/
def quotedScalar? (s : Scanner) : Option Scanner := do
  let s ← s.noteKey?
  let (text, c) ← quoted? s.here
  pure (({ s with mayBeKey := false }.emit (.scalar (.ofList text) false)).moveTo c)

/-- A plain scalar. -/
def plainScalar? (s : Scanner) : Option Scanner := do
  let s ← s.noteKey?
  let (text, newLine, c) := plain s.inFlow (s.indent + 1).toNat s.here
  pure (({ s with mayBeKey := newLine }.emit (.scalar (.ofList text) true)).moveTo c)

/-- Whether a plain scalar may begin with `x`, `after` being the character behind it. -/
def beginsPlain (inFlow : Bool) (x : Char) (after : Option Char) : Bool :=
  !(isGap (some x) || "-?:,[]\x7b\x7d#&*!|>'\"%@`".toList.contains x) ||
    (!isGap after && (x = '-' || (!inFlow && (x = '?' || x = ':'))))

/-! ## The whole text -/

/-- Moves to the next token, over spaces, comments and empty lines. -/
def skipSpace : Nat → Scanner → Scanner
  | 0, s => s
  | fuel + 1, s =>
    let c := s.here.dropWhile (· = ' ')
    let c := if c.sees '#' then c.dropWhile (!isBreak ·) else c
    if c.seesBreak then
      skipSpace fuel { s with here := c.takeBreak.2, mayBeKey := s.mayBeKey || !s.inFlow }
    else { s with here := c }

/-- Reads the token that starts with `x`. -/
def token? (s : Scanner) (x : Char) : Option Scanner :=
  let c := s.here
  let atMargin := c.column = 0
  if x = '%' && atMargin then s.directive?
  else if atMargin && c.seesMark "---" then s.documentMark? .documentStart
  else if atMargin && c.seesMark "..." then s.documentMark? .documentEnd
  else if x = '[' then s.openFlow? .openSequence
  else if x = '{' then s.openFlow? .openMapping
  else if x = ']' then s.closeFlow? .closeSequence
  else if x = '}' then s.closeFlow? .closeMapping
  else if x = ',' then s.comma?
  else if x = '-' && isGap (c.peek 1) then s.entry?
  else if x = '?' && (s.inFlow || isGap (c.peek 1)) then s.key?
  else if x = ':' && (s.inFlow || isGap (c.peek 1)) then s.value?
  else if x = '*' then s.anchor? .alias
  else if x = '&' then s.anchor? .anchor
  else if x = '!' then s.tag?
  else if (x = '|' || x = '>') && !s.inFlow then s.blockScalar?
  else if x = '\'' || x = '"' then s.quotedScalar?
  else if beginsPlain s.inFlow x (c.peek 1) then s.plainScalar?
  else none

/-- Reads the next token, if there is one; the flag says so. -/
def step? (s : Scanner) : Option (Bool × Scanner) := do
  let s ← (skipSpace (s.here.rest.length + 1) s).dropStale?
  let s := s.unwind s.here.column
  match s.here.rest.head? with
  | some x => (true, ·) <$> s.token? x
  | none => (false, ·) <$> (s.unwind (-1)).dropPending?

/-- Puts the found keys into their places; `place` is the number of tokens before the first one
given. -/
def layOut (found : List FoundKey) (place : Nat) : List Token → List Token
  | [] => []
  | t :: rest =>
    let keys := found.filter (·.place = place)
    (keys.flatMap fun k => if k.opensBlock then [.blockMapping, .key] else [.key]) ++
      t :: layOut found (place + 1) rest

/-- All tokens, the found keys in their places. -/
def laidOut (s : Scanner) : List Token := layOut s.found 0 s.tokens.reverse

/-- Reads all tokens; every one of them takes at least one character. -/
def run? : Nat → Scanner → Option (List Token)
  | 0, _ => none
  | fuel + 1, s => do
    match ← s.step? with
    | (true, s) => run? fuel s
    | (false, s) => pure s.laidOut

end Scanner

/-- Whether a character may stand in a text. -/
def isAllowed (x : Char) : Bool :=
  let n := x.toNat
  n = 9 || n = 10 || n = 13 || (32 ≤ n && n ≤ 126) || n =
    0x85 || (0xA0 ≤ n && n ≤ 0xFFFD) || 0x10000 ≤ n

/-- The tokens of a text. -/
def tokens? (text : List Char) : Option (List Token) :=
  let text := if text.head? = some '\ufeff' then text.drop 1 else text
  if text.all isAllowed then Scanner.run? (text.length + 2) { here := ⟨text, 0, 0, 0⟩ } else none

end Deadwood.Yaml
