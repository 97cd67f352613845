import Deadwood.Source.Encoding
import Deadwood.Source.Numeral
import Deadwood.Source.Token
import Deadwood.Text.Identifier

/-!
# From text to tokens

`tokens? line chars` cuts a text, whose lines are all ended and whose first line has the given
number, into tokens; there are none if a literal is not closed, a bracket does not match, the
indentation is not consistent, or a character can begin no token.

Outside brackets the layout counts: the end of a logical line is a token, and so is every step of
the indentation. Two measures of the indentation are kept, one with tab stops every eight columns
and one in which a tab counts as one column; they must agree on which lines stand deeper than
others.

* `margin?` measures the indentation of a line, `relayout?` compares it with the open blocks.
* `Scanner.step?` reads one token, or the space between two.
-/

namespace Deadwood.Source

/-! ## Names, quotes and marks -/

/-- Whether a name may begin with the character; those beyond ASCII are checked with the whole
name. -/
def beginsName (c : Char) : Bool := c.isAlpha || c = '_' || c.toNat ≥ 128

/-- Whether a name may contain the character; those beyond ASCII are checked with the whole name. -/
def continuesName (c : Char) : Bool := beginsName c || c.isDigit

/-- Whether the characters form a name. -/
def isName : List Char → Bool
  | [] => false
  | c :: rest => Text.isIdentifierStart c && rest.all Text.isIdentifierContinue

/-- The marking of a text literal at the front of a text: its form, its quote and what follows. -/
def opening? : List Char → Option (Quotation × Char × List Char)
  | a :: rest =>
    if isQuote a then some ({}, a, rest)
    else match rest with
      | b :: rest =>
        if isQuote b then (one a.toLower).map fun form => (form, b, rest)
        else match rest with
          | c :: rest =>
            if isQuote c then (two a.toLower b.toLower).map fun form => (form, c, rest) else none
          | [] => none
      | [] => none
  | [] => none
where
  /-- The two kinds of quotes. -/
  isQuote (c : Char) : Bool := c = '\'' || c = '"'
  /-- What one letter before the quote means. -/
  one : Char → Option Quotation
    | 'r' => some { raw := true }
    | 'u' => some {}
    | 'b' => some { bytes := true }
    | 'f' => some { formatted := true }
    | _ => none
  /-- What two letters before the quote mean. -/
  two : Char → Char → Option Quotation
    | 'r', 'b' | 'b', 'r' => some { raw := true, bytes := true }
    | 'r', 'f' | 'f', 'r' => some { raw := true, formatted := true }
    | _, _ => none

/-- The characters up to the closing quote, on one line unless a backslash ends it, and the rest. -/
def closeShort? (q : Char) : List Char → Option (List Char × List Char)
  | [] => none
  | [c] => if c = q then some ([], []) else none
  | c :: d :: rest =>
    if c = q then some ([], d :: rest)
    else if c = '\n' then none
    else if c = '\\' then (closeShort? q rest).map fun (body, after) => (c :: d :: body, after)
    else (closeShort? q (d :: rest)).map fun (body, after) => (c :: body, after)

/-- The characters up to three closing quotes, and the rest. -/
def closeLong? (q : Char) : List Char → Option (List Char × List Char)
  | c :: d :: e :: rest =>
    if c = q && d = q && e = q then some ([], rest)
    else if c = '\\' then (closeLong? q (e :: rest)).map fun (body, after) =>
      (c :: d :: body, after)
    else (closeLong? q (d :: e :: rest)).map fun (body, after) => (c :: body, after)
  | _ => none

/-- The body of a literal behind its opening quote, and the rest. -/
def close? (q : Char) : List Char → Option (List Char × List Char)
  | c :: d :: rest =>
    if c = q && d = q then closeLong? q rest
    else if c = q then some ([], d :: rest)
    else closeShort? q (c :: d :: rest)
  | rest => closeShort? q rest

/-- The longest mark at the front of a text, and the rest. -/
def mark? (cs : List Char) : Option (String × List Char) :=
  (marks.find? fun m => m.toList.isPrefixOf cs).map fun m => (m, cs.drop m.length)

/-! ## Layout -/

/-- The indentation of a line: with tab stops, and with tabs counted as single columns. -/
structure Margin where
  column : Nat
  plain : Nat
deriving Repr, DecidableEq, Inhabited

/-- Measures the indentation of a line that may be continued by backslashes, in which case the first
measure that is not zero counts; gives the margin, the number of continued lines and the rest. -/
def margin? (column plain held continued : Nat) : List Char → Option (Margin × Nat × List Char)
  | ' ' :: rest => margin? (column + 1) (plain + 1) held continued rest
  | '\t' :: rest => margin? ((column / 8 + 1) * 8) (plain + 1) held continued rest
  | '\x0c' :: rest => margin? 0 0 held continued rest
  | '\\' :: '\n' :: rest =>
    if rest.isEmpty then none
    else margin? column plain (if held = 0 then column else held) (continued + 1) rest
  | '\\' :: _ => none
  | rest => some (if held = 0 then ⟨column, plain⟩ else ⟨held, held⟩, continued, rest)

/-- The number of blocks that may be open at once. -/
def maxBlocks : Nat := 99

/-- The number of brackets that may be open at once. -/
def maxBrackets : Nat := 200

/-- The open blocks, innermost first, behind those that a line at `column` closes, and the number of
closed ones. -/
def closeBlocks (column : Nat) : List Margin → Nat × List Margin
  | [] => (0, [])
  | b :: rest =>
    if column < b.column then
      let (n, left) := closeBlocks column rest
      (n + 1, left)
    else (0, b :: rest)

/-- The layout tokens in front of a line and the blocks that are open then; none if the indentation
is not consistent. -/
def relayout? (m : Margin) (blocks : List Margin) : Option (List Lexeme × List Margin) :=
  let current := blocks.headD ⟨0, 0⟩
  if m.column = current.column then
    if m.plain = current.plain then some ([], blocks) else none
  else if m.column > current.column then
    if blocks.length < maxBlocks && m.plain > current.plain then some ([.indent], m :: blocks)
    else none
  else
    let (n, left) := closeBlocks m.column blocks
    if left.headD ⟨0, 0⟩ = m then some (List.replicate n .dedent, left) else none

/-! ## The scanner -/

/-- A text that is partly read. -/
structure Scanner where
  rest : List Char
  line : Nat
  /-- Whether a logical line begins here. -/
  fresh : Bool := true
  blocks : List Margin := []
  /-- The open brackets, innermost first. -/
  brackets : List Char := []
  /-- The tokens read so far, newest first. -/
  read : List Token := []
deriving Repr, Inhabited

namespace Scanner

/-- The closing bracket that belongs to an opening one. -/
def partner : Char → Char
  | '(' => ')'
  | '[' => ']'
  | _ => '\x7d'

/-- Goes on behind a token. -/
def emit (s : Scanner) (lexeme : Lexeme) (rest : List Char) : Scanner :=
  { s with read := ⟨lexeme, s.line⟩ :: s.read, rest }

/-- Goes on behind a mark, which may open or close a bracket. -/
def emitMark? (s : Scanner) (m : String) (rest : List Char) : Option Scanner :=
  let after := s.emit (.mark m) rest
  match m.toList with
  | [c] =>
    if c = '(' || c = '[' || c = '\x7b' then
      if s.brackets.length < maxBrackets then some { after with brackets := c :: s.brackets }
      else none
    else if c = ')' || c = ']' || c = '\x7d' then
      match s.brackets with
      | b :: others => if partner b = c then some { after with brackets := others } else none
      | [] => none
    else some after
  | _ => some after

/-- Reads the beginning of a logical line: its indentation, or the whole line if it is empty. -/
def beginLine? (s : Scanner) : Option Scanner := do
  let (m, continued, rest) ← margin? 0 0 0 0 s.rest
  let line := s.line + continued
  match rest.dropWhile (· ≠ '\n') with
  | '\n' :: next =>
    if rest.head? = some '\n' || rest.head? = some '#' then
      return { s with rest := next, line := line + 1 }
    else
      let (layout, blocks) ← relayout? m s.blocks
      let marks := layout.map (Token.mk · line)
      return { s with rest, line, blocks, fresh := false, read := marks.reverse ++ s.read }
  | _ => none

/-- Reads one token, or the space up to the next. -/
def step? (s : Scanner) : Option Scanner :=
  if s.fresh then s.beginLine?
  else match s.rest with
    | [] => none
    | '\n' :: rest =>
      if s.brackets.isEmpty then
        some { s.emit .newline rest with line := s.line + 1, fresh := true }
      else some { s with rest, line := s.line + 1 }
    | '#' :: rest => some { s with rest := rest.dropWhile (· ≠ '\n') }
    | '\\' :: '\n' :: rest =>
      if rest.isEmpty then none else some { s with rest, line := s.line + 1 }
    | c :: rest =>
      if isSpace c then some { s with rest }
      else match opening? s.rest with
        | some (form, q, after) => do
          let (body, rest) ← close? q after
          some { s.emit (.quote form body) rest with line := s.line + body.count '\n' }
        | none =>
          if beginsName c then
            let word := s.rest.takeWhile continuesName
            if isName word then
              let id := String.ofList word
              let lexeme := if keywords.contains id then Lexeme.keyword id else .name id
              some (s.emit lexeme (s.rest.dropWhile continuesName))
            else none
          else if c.isDigit || (c = '.' && (rest.head?.any Char.isDigit)) then do
            let (imaginary, rest) ← Numeral.scan? s.rest
            some (s.emit (.number imaginary) rest)
          else do
            let (m, rest) ← mark? s.rest
            s.emitMark? m rest

/-- Reads to the end, closing the blocks that are still open, in at most `fuel` steps. -/
def finish? : Nat → Scanner → Option (List Token)
  | 0, _ => none
  | fuel + 1, s =>
    if s.rest.isEmpty then
      if s.fresh then some (s.read.reverse ++ s.blocks.map fun _ => ⟨.dedent, s.line⟩) else none
    else s.step? >>= finish? fuel

end Scanner

/-- The tokens of a text whose lines are all ended and whose first line has the given number. -/
def tokens? (line : Nat) (chars : List Char) : Option (List Token) :=
  Scanner.finish? (2 * chars.length + 2) { rest := chars, line }

end Deadwood.Source
