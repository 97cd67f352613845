import Deadwood.Source.Encoding

/-!
# Text literals

What the characters between the quotes of a literal stand for.

* `unescape?` resolves the backslash escapes of a text, `isByteText` checks those of a byte
  sequence.
* `Piece` is a part of a formatted literal: plain text, or a replacement field with the text of its
  expression and the pieces of its format. `pieces?` cuts a formatted literal into them.
-/

namespace Deadwood.Source

/-! ## Escapes -/

/-- The value of a hexadecimal digit. -/
def hexDigit? (c : Char) : Option Nat :=
  if c.isDigit then some (c.toNat - 48)
  else if 'a' ≤ c && c ≤ 'f' then some (c.toNat - 87)
  else if 'A' ≤ c && c ≤ 'F' then some (c.toNat - 55)
  else none

/-- The number written by the given hexadecimal digits. -/
def hexNumber? (cs : List Char) : Option Nat :=
  cs.foldlM (fun n c => (hexDigit? c).map (16 * n + ·)) 0

/-- Whether a character is an octal digit. -/
def isOctal (c : Char) : Bool := '0' ≤ c && c ≤ '7'

/-- The number written by the given octal digits. -/
def octalNumber (cs : List Char) : Nat := cs.foldl (fun n c => 8 * n + (c.toNat - 48)) 0

/-- The characters that a backslash and one letter stand for. -/
def shortEscape? : Char → Option Char
  | '\\' => some '\\'
  | '\'' => some '\''
  | '"' => some '"'
  | 'a' => some '\x07'
  | 'b' => some '\x08'
  | 'f' => some '\x0c'
  | 'n' => some '\n'
  | 'r' => some '\r'
  | 't' => some '\t'
  | 'v' => some '\x0b'
  | _ => none

/-- The characters of a name of a character, between braces, and what follows. -/
def namedEscape? : List Char → Option (List Char × List Char)
  | '\x7b' :: rest =>
    match rest.span (· ≠ '\x7d') with
    | (name, _ :: after) =>
      if !name.isEmpty && name.all (fun c => c.isAlphanum || c = ' ' || c = '-')
        then some (name, after)
      else none
    | (_, []) => none
  | _ => none

/-- The length and the value of the escape behind a backslash, or none if it is malformed. A length
of zero says that the backslash stands for itself. -/
def escape? (cs : List Char) : Option (Nat × List Char) :=
  match cs with
  | [] => some (0, ['\\'])
  | '\n' :: _ => some (1, [])
  | 'x' :: rest => (hexNumber? (rest.take 2)).bind fun n =>
      if 2 ≤ rest.length then some (3, Text.ofPoint n) else none
  | 'u' :: rest => (hexNumber? (rest.take 4)).bind fun n =>
      if 4 ≤ rest.length then some (5, Text.ofPoint n) else none
  | 'U' :: rest => (hexNumber? (rest.take 8)).bind fun n =>
      if 8 ≤ rest.length && n < 0x110000 then some (9, Text.ofPoint n) else none
  | 'N' :: rest => (namedEscape? rest).map fun (name, _) => (name.length + 3, ['\ufffd'])
  | c :: _ =>
    if isOctal c then
      let digits := (cs.take 3).takeWhile isOctal
      some (digits.length, Text.ofPoint (octalNumber digits))
    else match shortEscape? c with
      | some d => some (1, [d])
      | none => some (0, ['\\'])

/-- Resolves the escapes of a text, `skip` characters of the last one remaining to be passed
over. -/
def unescapeFrom? : Nat → List Char → Option (List Char)
  | _, [] => some []
  | skip + 1, _ :: rest => unescapeFrom? skip rest
  | 0, c :: rest =>
    if c = '\\' then do
      let (n, value) ← escape? rest
      return value ++ (← unescapeFrom? n rest)
    else return c :: (← unescapeFrom? 0 rest)

/-- The text that a literal stands for; none if an escape in it is malformed. -/
def unescape? (raw : Bool) (body : List Char) : Option (List Char) :=
  if raw then some body else unescapeFrom? 0 body

/-- Whether the escapes of a byte sequence are well formed, `skip` characters of the last one
remaining to be passed over. -/
def byteEscapesFrom : Nat → List Char → Bool
  | _, [] => true
  | skip + 1, _ :: rest => byteEscapesFrom skip rest
  | 0, c :: rest =>
    if c = '\\' then
      if rest.head? = some 'x' then
        2 ≤ (rest.drop 1).length && (hexNumber? ((rest.drop 1).take 2)).isSome &&
          byteEscapesFrom 1 rest
      else byteEscapesFrom 1 rest
    else byteEscapesFrom 0 rest

/-- Whether a literal is a sequence of bytes: ASCII with well formed escapes. -/
def isByteText (raw : Bool) (body : List Char) : Bool :=
  body.all (·.toNat < 128) && (raw || byteEscapesFrom 0 body)

/-! ## Formatted literals -/

/-- A part of a formatted literal. -/
inductive Piece where
  | plain (text : List Char)
  /-- A replacement field: the text of its expression, the line on which that begins, and the pieces
  of its format. -/
  | field (expression : List Char) (line : Nat) (format : Option (List Piece))
deriving Repr, Inhabited

/-- The plain text at the front of a formatted literal and the rest, which begins with a brace if it
is not empty. Outside of formats a doubled brace stands for itself, and a single closing one is an
error; the name of a character may stand in braces. -/
def plainText? (raw : Bool) (nested : Bool) : Nat → List Char → Option (List Char × List Char)
  | 0, _ => none
  | fuel + 1, cs =>
    let go (front rest : List Char) : Option (List Char × List Char) :=
      (plainText? raw nested fuel rest).map fun (text, after) => (front ++ text, after)
    let brace (front : List Char) (c : Char) (rest : List Char) :=
      if nested then some (front, c :: rest)
      else match rest with
        | d :: rest' =>
          if d = c then go (front ++ [c]) rest'
          else if c = '\x7d' then none
          else some (front, c :: rest)
        | [] => if c = '\x7d' then none else some (front, [c])
    match cs with
    | [] => some ([], [])
    | '\\' :: c :: rest =>
      if raw then go ['\\'] (c :: rest)
      else if c = 'N' && rest.head? = some '\x7b' then
        match rest.span (· ≠ '\x7d') with
        | (name, closing) => go ('\\' :: 'N' :: name ++ closing.take 1) (closing.drop 1)
      else if c = '\x7b' || c = '\x7d' then brace ['\\'] c rest
      else go ['\\', c] rest
    | c :: rest => if c = '\x7b' || c = '\x7d' then brace [] c rest else go [c] rest

/-- The state inside the expression of a field: the quote that is open, if any, with its length, and
the open brackets, innermost first. -/
structure FieldState where
  quote : Option (Char × Bool) := none
  brackets : List Char := []
deriving Repr

/-- The expression of a field up to the mark that ends it, and the rest from that mark on; `skip`
characters belong to what was read before. -/
def fieldText? : Nat → FieldState → List Char → Option (List Char × List Char)
  | _, _, [] => none
  | skip + 1, st, c :: rest => keep c (fieldText? skip st rest)
  | 0, st, c :: rest =>
    let threefold := rest.take 2 = [c, c]
    if c = '\\' then none
    else match st.quote with
      | some (q, long) =>
        if c ≠ q then keep c (fieldText? 0 st rest)
        else if !long then keep c (fieldText? 0 { st with quote := none } rest)
        else if threefold then keep c (fieldText? 2 { st with quote := none } rest)
        else keep c (fieldText? 0 st rest)
      | none =>
        if c = '\'' || c = '"' then
          if threefold then keep c (fieldText? 2 { st with quote := some (c, true) } rest)
          else keep c (fieldText? 0 { st with quote := some (c, false) } rest)
        else if c = '(' || c = '[' || c = '\x7b' then
          keep c (fieldText? 0 { st with brackets := c :: st.brackets } rest)
        else if c = '#' then none
        else match st.brackets with
          | [] =>
            if c = '!' || c = '=' || c = '<' || c = '>' then
              if rest.head? = some '=' then keep c (fieldText? 1 st rest)
              else if c = '<' || c = '>' then keep c (fieldText? 0 st rest)
              else some ([], c :: rest)
            else if c = ':' || c = '\x7d' then some ([], c :: rest)
            else if c = ')' || c = ']' then none
            else keep c (fieldText? 0 st rest)
          | b :: others =>
            if c = ')' || c = ']' || c = '\x7d' then
              if (b, c) ∈ [('(', ')'), ('[', ']'), ('\x7b', '\x7d')] then
                keep c (fieldText? 0 { st with brackets := others } rest)
              else none
            else keep c (fieldText? 0 st rest)
where
  /-- Puts a character in front of an expression. -/
  keep (c : Char) (more : Option (List Char × List Char)) : Option (List Char × List Char) :=
    more.map fun (text, after) => (c :: text, after)

/-- Passes over the mark that shows a field's own text, with the space behind it. -/
def dropSelf : List Char → List Char
  | '=' :: rest => rest.dropWhile fun c => isSpace c || c = '\n' || c = '\r' || c = '\x0b'
  | rest => rest

/-- Passes over the conversion of a field. -/
def dropConversion? : List Char → Option (List Char)
  | '!' :: c :: rest => if c = 's' || c = 'r' || c = 'a' then some rest else none
  | ['!'] => none
  | rest => some rest

/-- Cuts a formatted literal, whose first line has the given number, into pieces; `level` is the
depth of formats. Inside a format the rest begins with the brace that closes its field. -/
def piecesFrom? (raw : Bool) (line : Nat) :
    Nat → Nat → List Char → List Char → Option (List Piece × List Char)
  | 0, _, _, _ => none
  | fuel + 1, level, before, cs => do
    let (text, rest) ← plainText? raw (level ≠ 0) (cs.length + 1) cs
    let decoded ← unescape? raw text
    let front : List Piece := if decoded.isEmpty then [] else [.plain decoded]
    match rest with
    | '\x7b' :: inner =>
      guard (level < 2)
      let passed (rest : List Char) := before ++ cs.take (cs.length - rest.length)
      let (expression, rest) ← fieldText? 0 {} inner
      guard !(expression.all fun c => c = ' ' || c = '\t' || c = '\n' || c = '\x0c')
      let here := line + (passed inner).count '\n'
      let rest ← dropConversion? (dropSelf rest)
      match rest with
      | ':' :: spec =>
        let (format, rest) ← piecesFrom? raw line fuel (level + 1) (passed spec) spec
        match rest with
        | '\x7d' :: rest =>
          let (more, rest) ← piecesFrom? raw line fuel level (passed rest) rest
          return (front ++ .field expression here (some format) :: more, rest)
        | _ => none
      | '\x7d' :: rest =>
        let (more, rest) ← piecesFrom? raw line fuel level (passed rest) rest
        return (front ++ .field expression here none :: more, rest)
      | _ => none
    | rest => return (front, rest)

/-- The pieces of a formatted literal. -/
def pieces? (raw : Bool) (line : Nat) (body : List Char) : Option (List Piece) :=
  match piecesFrom? raw line (body.length + 1) 0 [] body with
  | some (found, []) => some found
  | _ => none

end Deadwood.Source
