/-!
# The tokens of a YAML text

A token is an indicator, a scalar, or the begin or end of a block, which indentation alone shows.
-/

namespace Deadwood.Yaml

/-- How the kind of a node is given in the text. -/
inductive TagText where
  /-- A name behind a handle, which is a single or a double exclamation mark. -/
  | named (handle name : String)
  /-- A name in full. -/
  | full (name : String)
deriving Repr, DecidableEq, Inhabited

/-- A token of a YAML text. -/
inductive Token where
  /-- A line that concerns the whole document. -/
  | directive
  | documentStart
  | documentEnd
  | blockSequence
  | blockMapping
  | blockEnd
  | openSequence
  | closeSequence
  | openMapping
  | closeMapping
  | comma
  /-- The dash in front of an item of a block. -/
  | entry
  /-- The begin of a key, marked or not. -/
  | key
  /-- The colon between a key and its value. -/
  | value
  | alias (name : String)
  | anchor (name : String)
  | tag (t : TagText)
  /-- A scalar; one without quotes is plain. -/
  | scalar (text : String) (plain : Bool)
deriving Repr, DecidableEq, Inhabited

end Deadwood.Yaml
