import Deadwood.Text.Cut
import Deadwood.Text.Point

/-!
# The text of a source file

A source file is UTF-8 unless one of its first two lines is a comment that names another encoding.
`Source.text?` decodes the bytes of a file to characters, with every line ending written as a line
feed and the last line ended.

* `declared?` finds the encoding that a comment line names.
* `Encoding.ofName?` knows the encodings, `Encoding.decode?` applies them.
-/

namespace Deadwood.Source

/-- How the bytes of a file stand for characters. -/
inductive Encoding where
  | utf8
  | latin1
  | ascii
deriving Repr, DecidableEq

namespace Encoding

/-- The characters of a file in an encoding; none if the bytes are not valid in it. -/
def decode? : Encoding → List UInt8 → Option (List Char)
  | .utf8, bytes => (Text.ofBytes? bytes).map String.toList
  | .latin1, bytes => some (bytes.map fun b => Char.ofNat b.toNat)
  | .ascii, bytes =>
    if bytes.all (· < 128) then some (bytes.map fun b => Char.ofNat b.toNat) else none

/-- A name of an encoding in lower case, every run of separators being one underscore. -/
def plain (name : List Char) : String :=
  shorten (name.map fun c => if c = '.' || c.isAlphanum then c.toLower else '_')
where
  /-- Runs of underscores shortened to one. -/
  shorten (cs : List Char) : String :=
    .ofList
      (cs.foldr (fun c rest => if c = '_' && rest.head? = some '_' then rest else c :: rest) [])

/-- The encoding of a given name. -/
def ofName? (name : List Char) : Option Encoding :=
  let key := plain name
  if ["utf_8", "utf8", "u8", "utf", "cp65001", "utf8_ucs2", "utf8_ucs4"].contains key
    then some .utf8
  else if ["latin_1", "latin1", "latin", "l1", "iso8859_1", "iso8859", "iso_8859_1",
    "8859", "cp819",
      "iso_ir_100", "iso_8859_1_1987", "csisolatin1", "ibm819", "iso_latin_1"].contains key then
    some .latin1
  else if ["ascii", "646", "us_ascii", "us", "ansi_x3.4_1968", "ansi_x3_4_1968", "ansi_x3.4_1986",
      "iso646_us", "csascii", "cp367", "ibm367", "iso_ir_6", "iso_646.irv_1991"].contains key then
    some .ascii
  else none

/-- Whether a name is a spelling of UTF-8 with its hyphen. -/
def isHyphenated (name : List Char) : Bool :=
  let key := name.map fun c => if c = '_' then '-' else c.toLower
  key = "utf-8".toList || "utf-8-".toList.isPrefixOf key

end Encoding

/-- Every line ending, of whatever kind, as a line feed. -/
def lineFeeds : List Char → List Char
  | '\r' :: '\n' :: rest => '\n' :: lineFeeds rest
  | '\r' :: rest => '\n' :: lineFeeds rest
  | c :: rest => c :: lineFeeds rest
  | [] => []

/-- White space inside a line. -/
def isSpace (c : Char) : Bool := c = ' ' || c = '\t' || c = '\x0c'

/-- The first name that follows `coding:` or `coding=` in a line. -/
def namedEncoding? : List Char → Option (List Char)
  | [] => none
  | c :: rest =>
    let here? : Option (List Char) :=
      if "coding".toList.isPrefixOf (c :: rest) then
        match (c :: rest).drop 6 with
        | mark :: after =>
          if mark = ':' || mark = '=' then
            let name := (after.dropWhile fun x => x = ' ' || x = '\t').takeWhile fun x =>
              x.isAlphanum || x = '-' || x = '_' || x = '.'
            if name.isEmpty then none else some name
          else none
        | [] => none
      else none
    here? <|> namedEncoding? rest

/-- The encoding that a line names, if the line is a comment. -/
def declared? (line : List Char) : Option (List Char) :=
  match line.dropWhile isSpace with
  | '#' :: comment => namedEncoding? comment
  | _ => none

/-- Whether nothing but white space and a comment stands in a line. -/
def isSilent (line : List Char) : Bool :=
  match line.dropWhile isSpace with
  | [] => true
  | c :: _ => c = '#'

/-- The encoding that the first two lines of a file declare; a second line counts only after a
line without code. -/
def declaration? (chars : List Char) : Option (List Char) :=
  match Text.splitChars '\n' chars with
  | first :: second :: _ =>
    declared? first <|> (if isSilent first then declared? second else none)
  | [first] => declared? first
  | [] => none

/-- The bytes that mark a file as UTF-8. -/
def byteOrderMark : List UInt8 := [0xEF, 0xBB, 0xBF]

/-- A text with its last line ended. -/
def endLastLine (chars : List Char) : List Char :=
  if chars.getLast? = some '\n' then chars else chars ++ ['\n']

/-- The text of a file; none if its encoding is unknown or its bytes are not valid in it. -/
def text? (file : List UInt8) : Option (List Char) := do
  guard !(file.contains 0)
  let marked := byteOrderMark.isPrefixOf file
  let bytes := if marked then file.drop 3 else file
  let raw := lineFeeds (bytes.map fun b => Char.ofNat b.toNat)
  let encoding ← match declaration? raw with
    | none => some Encoding.utf8
    | some name =>
      if Encoding.isHyphenated name then some .utf8
      else if marked then none
      else Encoding.ofName? name
  let chars ← encoding.decode? bytes
  return endLastLine (lineFeeds chars)

end Deadwood.Source
