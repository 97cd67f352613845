/-!
# Positions in a YAML text

A cursor is the text that is still to be read, with the number of characters read, the line and the
column.
-/

namespace Deadwood.Yaml

/-- Whether a character ends a line. -/
def isBreak (c : Char) : Bool :=
  c = '\n' || c = '\r' || c = '\x85' || c = '\u2028' || c = '\u2029'

/-- Whether nothing, a space, a tab or the end of a line is next. -/
def isGap : Option Char → Bool
  | none => true
  | some c => c = ' ' || c = '\t' || isBreak c

/-- Whether nothing, a space or the end of a line is next. -/
def isStop : Option Char → Bool
  | none => true
  | some c => c = ' ' || isBreak c

/-- A position in a text. -/
structure Cursor where
  rest : List Char
  index : Nat := 0
  line : Nat := 0
  column : Nat := 0
deriving Repr, Inhabited

namespace Cursor

/-- The character `n` places ahead. -/
def peek (c : Cursor) (n : Nat) : Option Char := c.rest[n]?

/-- Whether the next character is `x`. -/
def sees (c : Cursor) (x : Char) : Bool := c.rest.head? = some x

/-- Whether a line ends here. -/
def seesBreak (c : Cursor) : Bool := c.rest.head?.any isBreak

/-- The position after the next character. -/
def next (c : Cursor) : Cursor :=
  match c.rest with
  | [] => c
  | x :: rest =>
    if isBreak x then ⟨rest, c.index + 1, c.line + 1, 0⟩
    else ⟨rest, c.index + 1, c.line, if x = '\ufeff' then c.column else c.column + 1⟩

/-- The position after `n` characters. -/
def skip : Nat → Cursor → Cursor
  | 0, c => c
  | n + 1, c => skip n c.next

/-- The next characters that satisfy `p`, and the position after them. -/
def takeWhile (p : Char → Bool) (c : Cursor) : List Char × Cursor :=
  let run := c.rest.takeWhile p
  (run, c.skip run.length)

/-- The position after all next characters that satisfy `p`. -/
def dropWhile (p : Char → Bool) (c : Cursor) : Cursor := (c.takeWhile p).2

/-- The end of a line as text and the position after it; most are written as a line feed. -/
def takeBreak (c : Cursor) : List Char × Cursor :=
  match c.rest with
  | '\r' :: '\n' :: _ => (['\n'], c.skip 2)
  | x :: _ =>
    if x = '\u2028' || x = '\u2029' then ([x], c.next)
    else if isBreak x then (['\n'], c.next)
    else ([], c)
  | [] => ([], c)

/-- Whether a mark of three characters that starts or ends a document is here. -/
def seesMark (mark : String) (c : Cursor) : Bool :=
  c.rest.take 3 = mark.toList && isGap (c.peek 3)

/-- Whether a document starts or ends here. -/
def seesDocumentMark (c : Cursor) : Bool := c.seesMark "---" || c.seesMark "..."

end Cursor

end Deadwood.Yaml
