import Deadwood.Fact
import Deadwood.Text.Integer
import Deadwood.Value.Reader

/-!
# Facts as values

`Fact.toValue` writes a fact as a value and `Fact.ofValue` reads one back. Reading is lenient about
kinds: texts, numbers and conditions are made from whatever stands there. `Fact.ofValue` answers
`none` for a value that it does not understand; only an item that is missing from a place, or a
number that is infinite, is reported as an error.
-/

namespace Deadwood

/-- Why a value could not be read. -/
inductive DecodeError where
  /-- An object was needed. -/
  | notAnObject
  /-- A required field is missing. -/
  | missingField
  /-- A value has a kind that cannot be used here. -/
  | wrongKind
  /-- A text or list does not have the required form. -/
  | badForm
  /-- A list is too short. -/
  | missingItem
  /-- A number is not finite. -/
  | notFinite
deriving Repr, DecidableEq

namespace DecodeError

/-- Whether the error means only that the value is no fact. -/
def isUnknown : DecodeError → Bool
  | .missingItem | .notFinite => false
  | _ => true

end DecodeError

namespace Value

/-- The integer that a value stands for. -/
def toInt : Value → Except DecodeError Int
  | .bool b => .ok (if b then 1 else 0)
  | .int n => .ok n
  | .float x =>
    match x with
    | .nan => .error .badForm
    | .infinite _ => .error .notFinite
    | .finite .. => .ok (x.trunc?.getD 0)
  | .str s => match Text.readInt? s with
    | some n => .ok n
    | none => .error .badForm
  | _ => .error .wrongKind

/-- The integer of an optional number: a missing, empty or zero value is 0. -/
def toIntOrZero (v : Value) : Except DecodeError Int := if v.truthy then v.toInt else .ok 0

/-- The items that a value consists of: a list's items, a text's code points, an object's names. -/
def elements : Value → Except DecodeError (List Value)
  | .list items => .ok items
  | .str s => .ok ((Text.points s.toList).map fun c => .str (.ofList c))
  | .dict fields => .ok (fields.map fun f => .str f.1)
  | _ => .error .wrongKind

/-- The texts of the items of an optional list: a missing or empty value is the empty list. -/
def toTexts (v : Value) : Except DecodeError (List String) :=
  if v.truthy then v.elements.map (·.map text) else .ok []

end Value

namespace Symbol

/-- A symbol as a list of scope, name and arity. -/
def toValue (s : Symbol) : Value := .list [.str s.scope, .str s.name, .int s.arity]

/-- Reads a symbol from three items. -/
def ofValue (v : Value) : Except DecodeError Symbol := do
  match ← v.elements with
  | [scope, name, arity] => do
    let n ← arity.toInt
    pure ⟨scope.text, name.text, n⟩
  | _ => .error .badForm

end Symbol

namespace Meta

/-- The fields of a definition's description. -/
def toFields (m : Meta) : List (String × Value) :=
  [("visibility", .str m.visibility), ("file", .str m.file), ("line", .int m.line), ("doc", m.doc),
    ("export", .bool m.export), ("generated", .bool m.generated), ("kind", .str m.kind),
    ("decorators", .list (m.decorators.map .str)), ("implements", .list (m.implements.map .str)),
    ("reexports", .list (m.reexports.map .str)),
    ("aliases", .dict (m.aliases.entries.map fun e => (e.1, .str e.2)))]

/-- A definition's description as an object. -/
def toValue (m : Meta) : Value := .dict m.toFields

/-- The entries of an optional object: a missing or empty value has none. -/
def aliasesOf (v : Value) : Except DecodeError (Table String String) :=
  if v.truthy then
    match v with
    | .dict fields => .ok (.ofList (fields.map fun f => (f.1, f.2.text)))
    | _ => .error .notAnObject
  else .ok ∅

/-- Reads a description; missing fields have their defaults. -/
def ofFields (fields : List (String × Value)) : Except DecodeError Meta := do
  let get (name : String) (default : Value) := (Value.field? fields name).getD default
  let line ← (get "line" (.int 0)).toIntOrZero
  let decorators ← (get "decorators" .null).toTexts
  let implements ← (get "implements" .null).toTexts
  let reexports ← (get "reexports" .null).toTexts
  let aliases ← aliasesOf (get "aliases" .null)
  pure {
    visibility := (get "visibility" (.str "public")).text
    file := (get "file" (.str "")).text
    line
    doc := get "doc" .null
    «export» := (get "export" (.bool false)).truthy
    generated := (get "generated" (.bool false)).truthy
    kind := (get "kind" (.str "function")).text
    decorators, implements, reexports, aliases }

/-- Reads a description from an object. -/
def ofValue : Value → Except DecodeError Meta
  | .dict fields => ofFields fields
  | _ => .error .notAnObject

end Meta

namespace Location

/-- A place as a list of file and line. -/
def toValue (l : Location) : Value := .list [.str l.file, .int l.line]

/-- Reads a place from the first two items of a list or text. -/
def ofValue : Value → Except DecodeError Location
  | .list (file :: line :: _) => line.toIntOrZero.map fun n => ⟨file.text, n⟩
  | .list _ => .error .missingItem
  | .str s => match Text.points s.toList with
    | file :: line :: _ => (Value.str (.ofList line)).toIntOrZero.map fun n => ⟨.ofList file, n⟩
    | _ => .error .missingItem
  | .dict _ => .error .missingField
  | _ => .error .wrongKind

end Location

namespace Fact

/-- A fact as an object, tagged by its kind. -/
def toValue : Fact → Value
  | .definition s m => .dict [("t", .str "def"), ("sym", s.toValue), ("meta", m.toValue)]
  | .call caller callee site =>
    .dict [("t", .str "call"), ("caller", caller.toValue), ("callee", callee.toValue),
      ("site", site.toValue)]

/-- The value of a required field. -/
def required (fields : List (String × Value)) (name : String) : Except DecodeError Value :=
  match Value.field? fields name with
  | some v => .ok v
  | none => .error .missingField

/-- `v` if it is a true condition, else `d`. -/
def orDefault (v : Option Value) (d : Value) : Value :=
  match v with
  | some v => if v.truthy then v else d
  | none => d

/-- Reads a fact from the fields of an object; `none` if the tag is unknown. -/
def ofFields (fields : List (String × Value)) : Except DecodeError (Option Fact) := do
  match Value.field? fields "t" with
  | some (.str "def") => do
    let s ← Symbol.ofValue (← required fields "sym")
    let m ← Meta.ofValue (orDefault (Value.field? fields "meta") (.dict []))
    pure (some (.definition s m))
  | some (.str "call") => do
    let caller ← Symbol.ofValue (← required fields "caller")
    let callee ← Symbol.ofValue (← required fields "callee")
    let site ← Location.ofValue (orDefault (Value.field? fields "site") (.list [.str "", .int 0]))
    pure (some (.call caller callee site))
  | _ => pure none

/-- Reads a fact; `none` if the value is not understood. -/
def ofValue : Value → Except DecodeError (Option Fact)
  | .dict fields =>
    match ofFields fields with
    | .error e => if e.isUnknown then .ok none else .error e
    | found => found
  | _ => .ok none

end Fact

end Deadwood
