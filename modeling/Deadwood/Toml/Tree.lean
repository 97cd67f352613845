import Deadwood.Setting

/-!
# The tables of a TOML text

A document is built table by table. Tables come into being where a path first goes through them;
those that were defined may not be defined again, and inline tables and arrays may not grow.

* `Fields` are the entries of a table, `within?` changes the table at the end of a path.
* `Marks` says which tables were defined and which may not grow.
-/

namespace Deadwood.Toml

/-- The entries of a table. -/
abbrev Fields := List (Setting × Setting)

/-- Whether a table has an entry. -/
def hasField (fields : Fields) (name : String) : Bool := (Setting.field? fields name).isSome

/-- Puts an entry into a table; one of the same name is replaced. -/
def putField (fields : Fields) (name : String) (v : Setting) : Fields :=
  if hasField fields name then
    fields.map fun f => match f.1 with
      | .str k => if k = name then (f.1, v) else f
      | _ => f
  else fields ++ [(.str name, v)]

/-- The entries of a table, or of the last table of an array if `arrays` allows that, and the way
back. -/
def enter? (arrays : Bool) : Setting → Option (Fields × (Fields → Setting))
  | .dict fields => some (fields, .dict)
  | .list items =>
    match items.getLast? with
    | some (.dict fields) =>
      if arrays then some (fields, fun fs => .list (items.dropLast ++ [.dict fs])) else none
    | _ => none
  | _ => none

/-- Changes the table at the end of a path from a table, making tables on the way where there are
none. -/
def within? (arrays : Bool) (change : Fields → Option Fields) : List String → Fields → Option Fields
  | [], fields => change fields
  | name :: path, fields => do
    let (inner, back) ← enter? arrays ((Setting.field? fields name).getD (.dict []))
    let inner ← within? arrays change path inner
    some (putField fields name (back inner))

/-- Adds an entry to the table at the end of a path; it must be new. -/
def addAt? (arrays : Bool) (path : List String) (name : String) (v : Setting) :
    Fields → Option Fields :=
  within? arrays (fun fields => if hasField fields name then none
    else some (fields ++ [(.str name, v)]))
    path

/-- Makes sure that there is a table at the end of a path. -/
def tableAt? : List String → Fields → Option Fields := within? true some

/-- Appends an empty table to the array at the end of a path. -/
def elementAt? (path : List String) (name : String) : Fields → Option Fields :=
  within? true (fun fields =>
    match Setting.field? fields name with
    | none => some (fields ++ [(.str name, .list [.dict []])])
    | some (.list items) => some (putField fields name (.list (items ++ [.dict []])))
    | some _ => none) path

/-- What is known of tables, by their paths. -/
structure Marks where
  /-- The tables that were defined. -/
  defined : List (List String) := []
  /-- The tables that dotted keys went through since the last header. -/
  passed : List (List String) := []
  /-- What may not grow, with all below. -/
  frozen : List (List String) := []
deriving Repr, Inhabited

namespace Marks

/-- Whether a table was defined. -/
def isDefined (m : Marks) (path : List String) : Bool := m.defined.contains path

/-- Whether a table may not grow. -/
def isFrozen (m : Marks) (path : List String) : Bool := m.frozen.any (·.isPrefixOf path)

/-- A header ends the table before it. -/
def settle (m : Marks) : Marks := { m with defined := m.passed ++ m.defined, passed := [] }

/-- Forgets all at a path and below. -/
def forget (m : Marks) (path : List String) : Marks :=
  { m with
    defined := m.defined.filter (!path.isPrefixOf ·)
    frozen := m.frozen.filter (!path.isPrefixOf ·) }

/-- Marks a table as defined. -/
def define (m : Marks) (path : List String) : Marks := { m with defined := path :: m.defined }

/-- Marks an array or an inline table, which may not grow. -/
def freeze (m : Marks) (path : List String) : Setting → Marks
  | .dict _ | .list _ => { m with frozen := path :: m.frozen }
  | _ => m

end Marks

end Deadwood.Toml
