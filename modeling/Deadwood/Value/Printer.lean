import Deadwood.Text.Quoted
import Deadwood.Value

/-!
# Writing JSON

`Value.toJson` writes a document on one line, `Value.toJsonLines` over several lines with an
indentation of two blanks per level. Characters outside ASCII stand for themselves.
-/

namespace Deadwood.Value

/-- How a JSON text shows `c`. -/
def jsonChar (c : Char) : List Char :=
  if c = '"' then ['\\', '"']
  else if c = '\\' then ['\\', '\\']
  else if c = '\n' then ['\\', 'n']
  else if c = '\r' then ['\\', 'r']
  else if c = '\t' then ['\\', 't']
  else if c.toNat = 8 then ['\\', 'b']
  else if c.toNat = 12 then ['\\', 'f']
  else if c.toNat < 32 then '\\' :: 'u' :: Text.hex 4 c.toNat
  else [c]

/-- A text in JSON quotes. -/
def jsonText (s : String) : String := .ofList ('"' :: (s.toList.flatMap jsonChar ++ ['"']))

/-- A double in JSON; the values without a numeral are the words that the reader knows. -/
def jsonFloat : Binary64 → String
  | .nan => "NaN"
  | .infinite negative => if negative then "-Infinity" else "Infinity"
  | x => x.text

/-- A value without items or fields. -/
def jsonAtom : Value → String
  | .null => "null"
  | .bool b => if b then "true" else "false"
  | .int n => toString n
  | .float x => jsonFloat x
  | .str s => jsonText s
  | .list _ => "[]"
  | .dict _ => "\x7b\x7d"

/-- A line break followed by the indentation of a level. -/
def newline (level : Nat) : String := .ofList ('\n' :: List.replicate (2 * level) ' ')

mutual

/-- The document on one line. -/
def toJson : Value → String
  | .list items => "[" ++ ", ".intercalate (toJsonItems items) ++ "]"
  | .dict fields => "\x7b" ++ ", ".intercalate (toJsonFields fields) ++ "\x7d"
  | v => v.jsonAtom

/-- The items of a list, each on one line. -/
def toJsonItems : List Value → List String
  | [] => []
  | v :: rest => v.toJson :: toJsonItems rest

/-- The fields of an object, each on one line. -/
def toJsonFields : List (String × Value) → List String
  | [] => []
  | (k, v) :: rest => (jsonText k ++ ": " ++ v.toJson) :: toJsonFields rest

end

mutual

/-- The document over several lines, its first line being at a level. -/
def toJsonLines (level : Nat) : Value → String
  | .list (v :: rest) =>
    "[" ++ newline (level + 1) ++
      ("," ++ newline (level + 1)).intercalate (toJsonLinesItems (level + 1) (v :: rest)) ++
      newline level ++ "]"
  | .dict (f :: rest) =>
    "\x7b" ++ newline (level + 1) ++
      ("," ++ newline (level + 1)).intercalate (toJsonLinesFields (level + 1) (f :: rest)) ++
      newline level ++ "\x7d"
  | v => v.jsonAtom

/-- The items of a list at a level. -/
def toJsonLinesItems (level : Nat) : List Value → List String
  | [] => []
  | v :: rest => v.toJsonLines level :: toJsonLinesItems level rest

/-- The fields of an object at a level. -/
def toJsonLinesFields (level : Nat) : List (String × Value) → List String
  | [] => []
  | (k, v) :: rest => (jsonText k ++ ": " ++ v.toJsonLines level) :: toJsonLinesFields level rest

end

end Deadwood.Value
