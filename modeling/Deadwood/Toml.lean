import Deadwood.Toml.Scalar
import Deadwood.Toml.Tree

/-!
# Reading TOML

`Toml.read` gives the table that a text describes. A text is a list of statements, one a line: a key
with its value, or the header of a table or of an element of an array of tables, which the keys
after it belong to.

* `key?` and `value?` read keys and values.
* `Document` is what statements have built, `Document.statement?` reads one more.
-/

namespace Deadwood.Toml

/-! ## Space and keys -/

/-- The rest behind a comment, which may not hold control characters. -/
def dropComment? : List Char → Option (List Char)
  | '#' :: rest =>
    let (comment, rest) := rest.span (· ≠ '\n')
    if comment.any isControl then none else some rest
  | cs => some cs

/-- The rest behind white space, ends of lines and comments. -/
def dropFiller? : Nat → List Char → Option (List Char)
  | 0, _ => none
  | fuel + 1, cs =>
    match cs.dropWhile isSpaceOrBreak with
    | '#' :: rest => (dropComment? ('#' :: rest)).bind (dropFiller? fuel)
    | rest => some rest

/-- Whether a character may stand in a key without quotes. -/
def isKeyChar (c : Char) : Bool := c.isAlphanum || c = '-' || c = '_'

/-- Whether a key may begin with a character. -/
def beginsKey (c : Char) : Bool := isKeyChar c || c = '"' || c = '\''

/-- A part of a key. -/
def keyPart? (cs : List Char) : Option (String × List Char) :=
  match cs with
  | c :: _ =>
    if isKeyChar c then some (.ofList (cs.takeWhile isKeyChar), cs.dropWhile isKeyChar)
    else shortText? cs
  | [] => none

/-- The parts of a key, with dots between, and the rest behind the space after them. -/
def keyFrom? : Nat → List Char → Option (List String × List Char)
  | 0, _ => none
  | fuel + 1, cs => do
    let (part, rest) ← keyPart? cs
    match rest.dropWhile isSpace with
    | '.' :: more => do
      let (parts, rest) ← keyFrom? fuel (more.dropWhile isSpace)
      some (part :: parts, rest)
    | rest => some ([part], rest)

/-- A key. -/
def key? (cs : List Char) : Option (List String × List Char) := keyFrom? (cs.length + 1) cs

/-! ## Values -/

/-- Reads a value from the front. -/
abbrev ValueReader := List Char → Except Fault (Setting × List Char)

/-- A key and its value. -/
def pair? (value : ValueReader) (cs : List Char) :
    Except Fault ((List String × Setting) × List Char) := do
  let (key, rest) ← orMalformed (key? cs)
  match rest with
  | '=' :: rest => do
    let (v, rest) ← value (rest.dropWhile isSpace)
    .ok ((key, v), rest)
  | _ => .error .malformed

/-- The items of an array, up to its closing bracket. -/
def items? (value : ValueReader) : Nat → List Char → Except Fault (List Setting × List Char)
  | 0, _ => .error .malformed
  | fuel + 1, cs => do
    match ← orMalformed (dropFiller? (cs.length + 1) cs) with
    | ']' :: rest => .ok ([], rest)
    | cs => do
      let (v, rest) ← value cs
      match ← orMalformed (dropFiller? (rest.length + 1) rest) with
      | ']' :: rest => .ok ([v], rest)
      | ',' :: rest => do
        let (more, rest) ← items? value fuel rest
        .ok (v :: more, rest)
      | _ => .error .malformed

/-- The entries of an inline table, up to its closing brace; `table` is what it holds so far. -/
def entries? (value : ValueReader) :
    Nat → Fields → Marks → List Char → Except Fault (Setting × List Char)
  | 0, _, _, _ => .error .malformed
  | fuel + 1, table, marks, cs => do
    let ((key, v), rest) ← pair? value cs
    if marks.isFrozen key then .error .malformed
    else
      let table ← orMalformed (addAt? false key.dropLast (key.getLast?.getD "") v table)
      match rest.dropWhile isSpace with
      | '}' :: rest => .ok (.dict table, rest)
      | ',' :: rest => entries? value fuel table (marks.freeze key v) (rest.dropWhile isSpace)
      | _ => .error .malformed

/-- An inline table, after its opening brace. -/
def inline? (value : ValueReader) (cs : List Char) : Except Fault (Setting × List Char) :=
  match cs.dropWhile isSpace with
  | '}' :: rest => .ok (.dict [], rest)
  | cs => entries? value (cs.length + 1) [] {} cs

/-- A value that is neither an array nor a table. -/
def scalar? (cs : List Char) : Except Fault (Setting × List Char) :=
  if cs.head? = some '"' || cs.head? = some '\'' then
    (orMalformed (text? cs)).map fun (s, rest) => (.str s, rest)
  else if cs.take 4 = "true".toList then .ok (.bool true, cs.drop 4)
  else if cs.take 5 = "false".toList then .ok (.bool false, cs.drop 5)
  else match date? cs with
    | some r => orMalformed r
    | none => number? cs

/-- A value, read with fuel for its depth. -/
def valueFrom? : Nat → ValueReader
  | 0, _ => .error .malformed
  | fuel + 1, cs =>
    match cs with
    | '[' :: rest =>
      (items? (valueFrom? fuel) (rest.length + 1) rest).map fun (vs, rest) => (.list vs, rest)
    | '{' :: rest => inline? (valueFrom? fuel) rest
    | _ => scalar? cs

/-- A value. -/
def value? : ValueReader := fun cs => valueFrom? (cs.length + 1) cs

/-! ## Statements -/

/-- What the statements so far have built. -/
structure Document where
  table : Fields := []
  marks : Marks := {}
  /-- The path of the table that keys belong to. -/
  header : List String := []
deriving Inhabited

namespace Document

/-- The paths that a dotted key goes through, from a header on. -/
def passes (header key : List String) : List (List String) :=
  (List.range (key.length - 1)).map fun i => header ++ key.take (i + 1)

/-- Sets a key to a value. -/
def set? (d : Document) (key : List String) (v : Setting) : Option Document := do
  let through := passes d.header key
  let parent := d.header ++ key.dropLast
  if through.any d.marks.isDefined || d.marks.isFrozen parent then none
  else
    let table ← addAt? true parent (key.getLast?.getD "") v d.table
    let marks := { d.marks with passed := through ++ d.marks.passed }
    some { d with table, marks := marks.freeze (d.header ++ key) v }

/-- Begins a table. -/
def beginTable? (d : Document) (key : List String) : Option Document := do
  let marks := d.marks.settle
  if marks.isDefined key || marks.isFrozen key then none
  else some { table := ← tableAt? key d.table, marks := marks.define key, header := key }

/-- Begins an element of an array of tables. -/
def beginElement? (d : Document) (key : List String) : Option Document := do
  let marks := d.marks.settle
  if marks.isFrozen key then none
  else
    let table ← elementAt? key.dropLast (key.getLast?.getD "") d.table
    some { table, marks := (marks.forget key).define key, header := key }

/-- Reads a header or a key with its value, if the line has one. -/
def content? (d : Document) (cs : List Char) : Except Fault (Document × List Char) :=
  match cs with
  | '[' :: '[' :: rest => do
    let (key, rest) ← orMalformed (key? (rest.dropWhile isSpace))
    match rest with
    | ']' :: ']' :: rest => (·, rest) <$> orMalformed (d.beginElement? key)
    | _ => .error .malformed
  | '[' :: rest => do
    let (key, rest) ← orMalformed (key? (rest.dropWhile isSpace))
    match rest with
    | ']' :: rest => (·, rest) <$> orMalformed (d.beginTable? key)
    | _ => .error .malformed
  | c :: _ =>
    if beginsKey c then do
      let ((key, v), rest) ← pair? value? cs
      (·, rest) <$> orMalformed (d.set? key v)
    else .ok (d, cs)
  | [] => .ok (d, cs)

/-- Reads a line. -/
def statement? (d : Document) (cs : List Char) : Except Fault (Document × List Char) := do
  let (d, rest) ← d.content? (cs.dropWhile isSpace)
  match ← orMalformed (dropComment? (rest.dropWhile isSpace)) with
  | [] => .ok (d, [])
  | '\n' :: rest => .ok (d, rest)
  | _ => .error .malformed

/-- Reads all lines; each takes at least one character. -/
def run? : Nat → Document → List Char → Except Fault Document
  | _, d, [] => .ok d
  | 0, _, _ => .error .malformed
  | fuel + 1, d, cs => do
    let (d, rest) ← d.statement? cs
    run? fuel d rest

end Document

/-- The ends of lines, each as one character. -/
def plainBreaks : List Char → List Char
  | '\r' :: '\n' :: rest => '\n' :: plainBreaks rest
  | c :: rest => c :: plainBreaks rest
  | [] => []

/-- The table that a text describes. -/
def read (text : List Char) : Except Fault Fields :=
  let cs := plainBreaks text
  (Document.run? (cs.length + 1) {} cs).map (·.table)

end Deadwood.Toml
