import Deadwood.Yaml.Kind
import Deadwood.Yaml.Node
import Deadwood.Yaml.Scan

/-!
# Reading YAML

`Yaml.read` gives the value of the only document of a text. Of several equal keys of a mapping the
first keeps its place and the last gives the value. A mapping may merge others, whose pairs its own
ones override.
-/

namespace Deadwood.Yaml

/-! ## Keys -/

/-- The number that a key is equal to. -/
def numberOf? : Setting → Option Binary64
  | .bool b => some (.ofInt (if b then 1 else 0))
  | .int n => some (.ofInt n)
  | .float x => some x
  | _ => none

/-- Whether two keys are equal. -/
def sameKey (a b : Setting) : Bool :=
  match a, b with
  | .int m, .int n => m = n
  | .str s, .str t => s = t
  | .null, .null => true
  | .moment kind parts, .moment kind' parts' => kind = kind' && parts = parts'
  | a, b =>
    match numberOf? a, numberOf? b with
    | some x, some y => x.compare? y = some .eq
    | _, _ => false

/-- Whether a value may be a key. -/
def isKey : Setting → Bool
  | .list _ | .dict _ => false
  | _ => true

/-- Puts a pair into a mapping. -/
def put (pairs : List (Setting × Setting)) (p : Setting × Setting) : List (Setting × Setting) :=
  if pairs.any fun q => sameKey q.1 p.1 then
    pairs.map fun q => if sameKey q.1 p.1 then (q.1, p.2) else q
  else pairs ++ [p]

/-- The pairs that a value merges into a mapping: its own, or those of its items, the first item
having the last word. -/
def mergedPairs : Setting → Except Fault (List (Setting × Setting))
  | .dict pairs => .ok pairs
  | .list items => do
    let parts ← items.mapM fun
      | .dict pairs => .ok pairs
      | _ => .error .malformed
    pure parts.reverse.flatten
  | _ => .error .malformed

/-! ## Values -/

/-- The value of a scalar. -/
def scalarValue (tag : Tag) (text : String) : Except Fault Setting :=
  match tag with
  | .implicit => (Kind.of text).read text
  | .quoted => .ok (.str text)
  | .named name =>
    if name = standardTag ++ "str" then .ok (.str text)
    else if name = standardTag ++ "null" then .ok .null
    else if name = standardTag ++ "bool" then Kind.bool.read text
    else if name = standardTag ++ "int" then Kind.int.read text
    else if name = standardTag ++ "float" then Kind.float.read text
    else if name = standardTag ++ "timestamp" then Kind.date.read text
    else .error .malformed

/-- Whether a tag is the one of a kind of collection, or none. -/
def fits (tag : Tag) (kind : String) : Bool :=
  match tag with
  | .implicit | .quoted => true
  | .named name => name = standardTag ++ kind

/-- What a key stands for in a mapping. -/
inductive Key where
  | merge
  | plain (v : Setting)

/-- What the text of a plain key stands for. -/
def scalarKey (tag : Tag) (text : String) : Except Fault Key :=
  if tag = .implicit && text = "<<" || tag = .named (standardTag ++ "merge") then .ok .merge
  else if tag = .implicit && text = "=" then .ok (.plain (.str text))
  else .plain <$> scalarValue tag text

mutual

/-- The value of a node. -/
def Node.value : Node → Except Fault Setting
  | .scalar tag text => scalarValue tag text
  | .sequence tag items =>
    if fits tag "seq" then do return .list (← valuesOf items) else .error .malformed
  | .mapping tag pairs =>
    if fits tag "map" then do
      let (merged, own) ← pairsOf pairs
      return .dict ((merged ++ own).foldl put [])
    else .error .malformed

/-- The values of some nodes. -/
def valuesOf : List Node → Except Fault (List Setting)
  | [] => .ok []
  | n :: rest => do
    let v ← n.value
    return v :: (← valuesOf rest)

/-- The pairs that a mapping merges and its own pairs. -/
def pairsOf : List (Node × Node) →
      Except Fault (List (Setting × Setting) × List (Setting × Setting))
  | [] => .ok ([], [])
  | (k, v) :: rest => do
    let key ← match k with
      | .scalar tag text => scalarKey tag text
      | n => .plain <$> n.value
    let value ← v.value
    let (merged, own) ← pairsOf rest
    match key with
    | .merge => return ((← mergedPairs value) ++ merged, own)
    | .plain key => if isKey key then return (merged, (key, value) :: own) else .error .malformed

end

/-- The value of the only document of a text; null if there is none. -/
def read (text : List Char) : Except Fault Setting :=
  match (tokens? text).bind document? with
  | none => .error .malformed
  | some none => .ok .null
  | some (some n) => n.value

end Deadwood.Yaml
