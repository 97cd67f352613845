import Deadwood.Command.Flag

/-!
# Descriptions of commands

A command is described by a line that shows how it is used and a table of its options. Lines are at
most 78 characters long; longer ones are broken between words.

* `usage` shows how a command is used.
* `flagTable` is the table of some options.
-/

namespace Deadwood.Command

/-- The largest length of a line. -/
def lineWidth : Nat := 78

/-- The column at which explanations begin at the latest. -/
def latestColumn : Nat := 24

/-- Blanks. -/
def blanks (n : Nat) : String := Text.times n " "

/-- Puts words into lines: a word goes to the next line if the line would be longer than `width`.
The first line is `used` characters long already and holds the words `line`, the last one first. -/
def fill (width used next : Nat) (line : List String) : List String → List String
  | [] => if line.isEmpty then [] else [" ".intercalate line.reverse]
  | w :: rest =>
    if used + 1 + w.length > width && !line.isEmpty then
      " ".intercalate line.reverse :: fill width (next + w.length + 1) next [w] rest
    else fill width (used + w.length + 1) next (w :: line) rest

/-! ## Usage -/

/-- What an option takes, as descriptions call it. -/
def Flag.valueText (f : Flag) : String :=
  match f.takes with
  | .nothing => ""
  | .text called | .number called => " " ++ called

/-- An option in a usage line. -/
def Flag.usage (f : Flag) : String := "[" ++ f.names.headD "" ++ f.valueText ++ "]"

/-- How a program is used, given the words behind its name. -/
def usage (program : String) (words : List String) : String :=
  let start := "usage: "
  let whole := start ++ " ".intercalate (program :: words)
  if whole.length ≤ lineWidth then whole
  else
    let indent := start.length + program.length + 1
    match fill lineWidth (start.length - 1) (indent - 1) [] (program :: words) with
    | [] => whole
    | first :: rest =>
      "\n".intercalate ((start ++ first) :: rest.map fun line => blanks indent ++ line)

/-! ## Tables -/

/-- A row of a table: what stands on the left, its indentation and the explanation. -/
structure Row where
  indent : Nat := 2
  head : String
  about : String := ""

/-- An option as a row. -/
def Flag.row (f : Flag) : Row :=
  { head := ", ".intercalate (f.names.map (· ++ f.valueText)), about := f.about }

/-- The column at which the explanations of some rows begin. -/
def columnOf (rows : List Row) : Nat :=
  min ((rows.map fun r => r.indent + r.head.length).foldl max 0 + 2) latestColumn

/-- The lines of a row. -/
def Row.lines (column : Nat) (r : Row) : List String :=
  let room := column - r.indent - 2
  let words := (Text.splitOn ' ' r.about).filter (· ≠ "")
  match fill (lineWidth - column + 1) 0 0 [] words with
  | [] => [blanks r.indent ++ r.head]
  | first :: rest =>
    let more := rest.map fun line => blanks column ++ line
    if r.head.length ≤ room then
      (blanks r.indent ++ Text.padRight room r.head ++ "  " ++ first) :: more
    else (blanks r.indent ++ r.head) :: (blanks column ++ first) :: more

/-- A table with a title; `column` is where explanations begin. -/
def table (column : Nat) (title : String) (rows : List Row) : List String :=
  (title ++ ":") :: rows.flatMap (Row.lines column)

/-- The text of some paragraphs with empty lines between. -/
def paragraphs (ps : List (List String)) : String :=
  "\n\n".intercalate (ps.map fun lines => "\n".intercalate lines) ++ "\n"

/-- The description of a command that has only options. -/
def description (program : String) (flags : List Flag) : String :=
  let rows := flags.map Flag.row
  paragraphs [[usage program (flags.map Flag.usage)], table (columnOf rows) "options" rows]

end Deadwood.Command
