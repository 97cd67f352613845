import Deadwood.Source.Literal
import Deadwood.Yaml.Cursor

/-!
# Written scalars

A scalar is written plainly, in quotes, or as a block of lines. Where it goes over several lines,
the ends of the lines are folded into spaces, unless the block keeps them.

* `quoted?` reads a scalar in quotes.
* `plain` reads a plain scalar.
* `block?` reads a block of lines.
-/

namespace Deadwood.Yaml

/-! ## Folding -/

/-- What the end of a line and the empty lines after it become in a folded text. -/
def folded (first : List Char) (breaks : List Char) : List Char :=
  if first ≠ ['\n'] then first ++ breaks
  else if breaks.isEmpty then [' '] else breaks

/-! ## Quotes -/

/-- What a letter after a backslash stands for. -/
def escape? : Char → Option Char
  | '0' => some '\x00'
  | 'a' => some '\x07'
  | 'b' => some '\x08'
  | 't' | '\t' => some '\t'
  | 'n' => some '\n'
  | 'v' => some '\x0b'
  | 'f' => some '\x0c'
  | 'r' => some '\r'
  | 'e' => some '\x1b'
  | ' ' => some ' '
  | '"' => some '"'
  | '\\' => some '\\'
  | '/' => some '/'
  | 'N' => some '\x85'
  | '_' => some '\xa0'
  | 'L' => some '\u2028'
  | 'P' => some '\u2029'
  | _ => none

/-- The number of digits of a code after a backslash and a letter. -/
def codeLength? : Char → Option Nat
  | 'x' => some 2
  | 'u' => some 4
  | 'U' => some 8
  | _ => none

/-- The empty lines at the position, as text; a document may not end inside of quotes. -/
def emptyLines? : Nat → Cursor → Option (List Char × Cursor)
  | 0, _ => none
  | fuel + 1, c =>
    if c.seesDocumentMark then none
    else
      let c := c.dropWhile fun x => x = ' ' || x = '\t'
      if c.seesBreak then do
        let (first, c) := c.takeBreak
        let (more, c) ← emptyLines? fuel c
        pure (first ++ more, c)
      else some ([], c)

/-- The rest of a scalar in quotes, after the opening quote. -/
def quotedFrom? (double : Bool) : Nat → Cursor → Option (List Char × Cursor)
  | 0, _ => none
  | fuel + 1, c =>
    match c.rest with
    | [] => none
    | x :: rest =>
      if x = '\'' && !double then
        if rest.head? = some '\'' then follow fuel [x] (c.skip 2) else some ([], c.next)
      else if x = '"' && double then some ([], c.next)
      else if x = '\\' && double then
        match rest with
        | [] => none
        | e :: digits =>
          match escape? e, codeLength? e with
          | some d, _ => follow fuel [d] (c.skip 2)
          | none, some n => do
            let code ← if (digits.take n).length = n
              then Source.hexNumber? (digits.take n) else none
            if code < 0x110000 then follow fuel (Text.ofPoint code) (c.skip (n + 2)) else none
          | none, none =>
            if isBreak e then do
              let (_, c) := c.next.takeBreak
              let (breaks, c) ← emptyLines? (fuel + 1) c
              follow fuel breaks c
            else none
      else if x = ' ' || x = '\t' || isBreak x then
        let (spaces, after) := c.takeWhile fun y => y = ' ' || y = '\t'
        if after.rest.isEmpty then none
        else if after.seesBreak then do
          let (first, after) := after.takeBreak
          let (breaks, after) ← emptyLines? (fuel + 1) after
          follow fuel (folded first breaks) after
        else follow fuel spaces after
      else follow fuel [x] c.next
where
  /-- The rest of the scalar behind a part of it. -/
  follow (fuel : Nat) (part : List Char) (c : Cursor) : Option (List Char × Cursor) :=
    (quotedFrom? double fuel c).map fun (text, c) => (part ++ text, c)

/-- The scalar in quotes that starts here. -/
def quoted? (c : Cursor) : Option (List Char × Cursor) :=
  quotedFrom? (c.sees '"') (c.rest.length + 1) c.next

/-! ## Plain scalars -/

/-- Whether a character separates items inside brackets. -/
def isSeparator (x : Char) : Bool := x = ',' || x = '[' || x = ']' || x = '{' || x = '}'

/-- The part of a plain scalar up to the next space or indicator. -/
def plainRun (inFlow : Bool) : List Char → List Char
  | [] => []
  | x :: rest =>
    if isGap (some x) || (inFlow && (x = '?' || isSeparator x)) ||
        (x = ':' && (isGap rest.head? || (inFlow && rest.head?.any isSeparator))) then []
    else x :: plainRun inFlow rest

/-- The empty lines and the indentation after the end of a line, as text; the flag says whether the
scalar may go on. -/
def plainLines : Nat → Cursor → List Char × Bool × Cursor
  | 0, c => ([], false, c)
  | fuel + 1, c =>
    if c.sees ' ' then plainLines fuel c.next
    else if c.seesBreak then
      let (first, c) := c.takeBreak
      if c.seesDocumentMark then ([], false, c)
      else
        let (more, goesOn, c) := plainLines fuel c
        (first ++ more, goesOn, c)
    else ([], true, c)

/-- What stands between two parts of a plain scalar, if it goes on, and the position after it; the
last flag says whether a line ended. -/
def plainSpace (c : Cursor) : List Char × Bool × Cursor :=
  let (spaces, c) := c.takeWhile (· = ' ')
  if c.seesBreak then
    let (first, c) := c.takeBreak
    if c.seesDocumentMark then ([], true, c)
    else
      let (breaks, goesOn, c) := plainLines (c.rest.length + 1) c
      (if goesOn then folded first breaks else [], true, c)
  else (spaces, false, c)

/-- The rest of a plain scalar whose lines are indented by at least `indent`, after a part of it and
what follows that; the flag says whether the last thing read ended a line. -/
def plainFrom (inFlow : Bool) (indent : Nat) :
    Nat → List Char → Bool → Cursor → List Char × Bool × Cursor
  | 0, _, newLine, c => ([], newLine, c)
  | fuel + 1, space, newLine, c =>
    if c.sees '#' then ([], newLine, c)
    else
      let run := plainRun inFlow c.rest
      if run.isEmpty then ([], newLine, c)
      else
        let (after, ended, c) := plainSpace (c.skip run.length)
        if after.isEmpty || c.sees '#' || (!inFlow && c.column < indent)
          then (space ++ run, ended, c)
        else
          let (more, newLine, c) := plainFrom inFlow indent fuel after ended c
          (space ++ run ++ more, newLine, c)

/-- The plain scalar that starts here, and whether a line ended after it. -/
def plain (inFlow : Bool) (indent : Nat) (c : Cursor) : List Char × Bool × Cursor :=
  plainFrom inFlow indent (c.rest.length + 1) [] false c

/-! ## Blocks of lines -/

/-- What becomes of the ends of the lines at the end of a block. -/
inductive Chomp where
  | clip
  | strip
  | keep
deriving Repr, DecidableEq, Inhabited

/-- Whether and how a character says what becomes of the last ends of lines. -/
def chomp? : Char → Option Chomp
  | '+' => some .keep
  | '-' => some .strip
  | _ => none

/-- The indentation that a character gives; zero is refused. -/
def indentation? (x : Char) : Option Nat := if '1' ≤ x && x ≤ '9' then some (x.toNat - 48) else none

/-- The indicators behind the one that starts a block, in any order. -/
def blockHeader (c : Cursor) : Chomp × Option Nat × Cursor :=
  match c.rest with
  | x :: rest =>
    match chomp? x, indentation? x with
    | some h, _ =>
      match rest.head?.bind indentation? with
      | some n => (h, some n, c.skip 2)
      | none => (h, none, c.next)
    | none, some n =>
      match rest.head?.bind chomp? with
      | some h => (h, some n, c.skip 2)
      | none => (.clip, some n, c.next)
    | none, none => (.clip, none, c)
  | [] => (.clip, none, c)

/-- The rest of a line that may hold only a comment. -/
def blankLine? (c : Cursor) : Option Cursor :=
  let c := c.dropWhile (· = ' ')
  let c := if c.sees '#' then c.dropWhile (!isBreak ·) else c
  if c.rest.isEmpty || c.seesBreak then some c.takeBreak.2 else none

/-- The position after the spaces up to a column. -/
def indentTo (column : Nat) : Nat → Cursor → Cursor
  | 0, c => c
  | fuel + 1, c => if c.column < column && c.sees ' ' then indentTo column fuel c.next else c

/-- The empty lines at the position, as text, the last line being indented at most to a column. -/
def blockBreaks (column : Nat) : Nat → Cursor → List Char × Cursor
  | 0, c => ([], c)
  | fuel + 1, c =>
    let c := indentTo column column c
    if c.seesBreak then
      let (first, c) := c.takeBreak
      let (more, c) := blockBreaks column fuel c
      (first ++ more, c)
    else ([], c)

/-- The empty lines at the begin of a block, as text, and the largest indentation among them and the
first line with text. -/
def blockIndent (most : Nat) : Nat → Cursor → List Char × Nat × Cursor
  | 0, c => ([], most, c)
  | fuel + 1, c =>
    if c.sees ' ' then blockIndent (max most c.next.column) fuel c.next
    else if c.seesBreak then
      let (first, c) := c.takeBreak
      let (more, most, c) := blockIndent most fuel c
      (first ++ more, most, c)
    else ([], most, c)

/-- The lines of a block at a column, after the text `breaks` of empty lines: the text, the end of
the last line, the empty lines after it and the position after them. -/
def blockLines (fold : Bool) (column : Nat) :
    Nat → List Char → Cursor → List Char × List Char × List Char × Cursor
  | 0, breaks, c => ([], [], breaks, c)
  | fuel + 1, breaks, c =>
    if c.column = column && !c.rest.isEmpty then
      let indented (c : Cursor) : Bool := c.sees ' ' || c.sees '\t'
      let (line, after) := c.takeWhile (!isBreak ·)
      let (lineEnd, after) := after.takeBreak
      let (more, after) := blockBreaks column (after.rest.length + 1) after
      if after.column = column && !after.rest.isEmpty then
        let between :=
          if fold && lineEnd = ['\n'] && !indented c && !indented after then
            if more.isEmpty then [' '] else []
          else lineEnd
        let (text, rest) := blockLines fold column fuel more after
        (breaks ++ line ++ between ++ text, rest)
      else (breaks ++ line, lineEnd, more, after)
    else ([], [], breaks, c)

/-- The block of lines whose indicator is here; `indent` is the indentation of what it stands in. -/
def block? (indent : Int) (c : Cursor) : Option (List Char × Cursor) := do
  let fold := c.sees '>'
  let (chomp, given, c) := blockHeader c.next
  let c ← blankLine? c
  let least := (max (indent + 1) 1).toNat
  let fuel := c.rest.length + 1
  let (breaks, column, c) := match given with
    | some n =>
      let column := least + n - 1
      let (breaks, c) := blockBreaks column fuel c
      (breaks, column, c)
    | none =>
      let (breaks, most, c) := blockIndent 0 fuel c
      (breaks, max least most, c)
  let (text, lineEnd, more, c) := blockLines fold column fuel breaks c
  let tail := match chomp with
    | .strip => []
    | .clip => lineEnd
    | .keep => lineEnd ++ more
  pure (text ++ tail, c)

end Deadwood.Yaml
