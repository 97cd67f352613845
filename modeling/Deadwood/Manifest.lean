import Deadwood.Fact.Codec
import Deadwood.File.Path
import Deadwood.Library.Failure
import Deadwood.Text.Point
import Deadwood.Value.Printer

/-!
# Manifests

A manifest keeps the facts of every unit from run to run, with the digest of its source and the name
of its module, so that sources that did not change need not be read again. It is kept as a JSON
text.

* `Manifest.toText` writes a manifest, `Manifest.ofBytes` reads one, given how documents are read.
* `Manifest.merge` replaces the entries of some units.
-/

namespace Deadwood

namespace Manifest

/-- What is kept of a unit. -/
structure Entry where
  digest : String
  module : String := ""
  facts : List Fact := []
deriving Repr, Inhabited

/-- Why a text is no manifest. -/
inductive Error where
  | noDigest
  | factsNotAList
  /-- A fact of no known form. -/
  | strangeFact (given : Value)
  | unreadable (path : Path) (reason : String)
  | corrupt (path : Path) (reason : String)
  | unknownVersion (path : Path)
  | unitsNotAnObject (path : Path)

/-- The error in words. -/
def Error.message : Error → String
  | .noDigest => "entry without digest"
  | .factsNotAList => "facts must be a list"
  | .strangeFact given => "undecodable fact " ++ given.display
  | .unreadable path reason => "cannot read " ++ path.text ++ " (" ++ reason ++ ")"
  | .corrupt path reason => "corrupt manifest " ++ path.text ++ " (" ++ reason ++ ")"
  | .unknownVersion path => "unknown manifest version in " ++ path.text
  | .unitsNotAnObject path => "malformed units in " ++ path.text

/-- What ends the reading of a manifest for good. -/
inductive Breakdown where
  /-- A fact has a part that no fact can have. -/
  | fact (e : DecodeError)
  /-- The reader of documents breaks down. -/
  | document (what : String)
deriving Repr, DecidableEq

/-- Why a manifest cannot be read: it is none, or reading it breaks down. -/
inductive Fault where
  | bad (e : Error)
  | broken (b : Breakdown)

end Manifest

/-- What is kept from run to run, by unit. -/
abbrev Manifest := Table String Manifest.Entry

namespace Manifest

/-- The version of the text. -/
def version : Nat := 1

/-! ## Writing -/

/-- An entry as an object. -/
def Entry.toValue (e : Entry) : Value :=
  .dict [("digest", .str e.digest), ("module", .str e.module),
    ("facts", .list (e.facts.map Fact.toValue))]

/-- The entries in the order of their units. -/
def sorted (m : Manifest) : Manifest := ⟨m.entries.mergeSort fun a b => a.1 ≤ b.1⟩

/-- A manifest as an object, in the order of the units. -/
def toValue (m : Manifest) : Value :=
  .dict [("version", .int version),
    ("units", .dict ((sorted m).entries.map fun e => (e.1, e.2.toValue)))]

/-- The text of a manifest. -/
def toText (m : Manifest) : String := (toValue m).toJsonLines 0

/-! ## Reading -/

/-- The facts of an entry. -/
def factsOf : List Value → Except Fault (List Fact)
  | [] => .ok []
  | v :: rest => do
    let fact ← match v with
      | .dict _ => match Fact.ofValue v with
        | .ok f => pure f
        | .error e => .error (.broken (.fact e))
      | _ => pure none
    match fact with
    | none => .error (.bad (.strangeFact v))
    | some f => return f :: (← factsOf rest)

/-- A field that counts as missing if it is empty or zero. -/
def given? (v : Value) (name : String) : Option Value := (v.get? name).filter Value.truthy

/-- The entry that an object gives. -/
def Entry.ofValue (v : Value) : Except Fault Entry :=
  match v.get? "digest" with
  | some (.str digest) => do
    let facts ← match given? v "facts" with
      | none => pure []
      | some (.list items) => factsOf items
      | some _ => .error (.bad .factsNotAList)
    return { digest, facts, module := ((given? v "module").map Value.text).getD "" }
  | _ => .error (.bad .noDigest)

/-- The entries of some units. -/
def entriesOf : List (String × Value) → Except Fault (List (String × Entry))
  | [] => .ok []
  | (unit, v) :: rest => do
    let e ← Entry.ofValue v
    return (unit, e) :: (← entriesOf rest)

/-- The manifest that an object gives; `path` is the file it comes from. -/
def ofValue (path : Path) (v : Value) : Except Fault Manifest :=
  match v.get? "version" with
  | some n =>
    if n.same (.int version) then
      match given? v "units" with
      | none => .ok ∅
      | some (.dict units) => (entriesOf units).map .ofList
      | some _ => .error (.bad (.unitsNotAnObject path))
    else .error (.bad (.unknownVersion path))
  | none => .error (.bad (.unknownVersion path))

/-- The manifest in the content of a file; `json` reads documents. -/
def ofBytes (json : String → Library.Answer String Value) (path : Path) (content : List UInt8) :
    Except Fault Manifest :=
  match Text.ofBytes? content with
  | none => .error (.bad (.corrupt path "not UTF-8"))
  | some text =>
    match json text with
    | .error (.refused reason) => .error (.bad (.corrupt path reason))
    | .error (.broken what) => .error (.broken (.document what))
    | .ok v => ofValue path v

/-! ## Merging -/

/-- The entries of `old`, those of the units of `new` being replaced, in the order of the units. -/
def merge (old new : Manifest) : Manifest :=
  sorted (new.entries.foldl (fun t e => t.insert e.1 e.2) old)

end Manifest

end Deadwood
