import Deadwood.Fact
import Deadwood.Value

/-!
# Findings

A finding reports one symbol for one reason. Findings are ordered by place, then symbol, then the
name of the reason.
-/

namespace Deadwood

/-- Why a symbol is reported. -/
inductive FindingKind where
  /-- Nothing that is used leads to it. -/
  | unused
  /-- It is used only inside its own scope. -/
  | narrowable
  /-- It is used only by itself. -/
  | recursiveOnly
deriving Repr, DecidableEq, Inhabited

namespace FindingKind

/-- The name of the reason. -/
def text : FindingKind → String
  | .unused => "unused"
  | .narrowable => "narrowable_visibility"
  | .recursiveOnly => "recursive_only"

/-- The heading under which reports count the reason. -/
def analyzer : FindingKind → String
  | .unused => "Unused"
  | .narrowable => "Private"
  | .recursiveOnly => "RecursiveOnly"

/-- The reason with a name. -/
def ofText? (s : String) : Option FindingKind :=
  [unused, narrowable, recursiveOnly].find? (·.text = s)

end FindingKind

/-- A reported symbol. -/
structure Finding where
  symbol : Symbol
  kind : FindingKind
  location : Location
  message : String
  severity : String := "hint"
deriving Repr, DecidableEq, Inhabited

namespace Finding

/-- The order of findings: by file, line, symbol and reason. -/
def cmp (a b : Finding) : Ordering :=
  (a.location.cmp b.location).then
    ((a.symbol.cmp b.symbol).then (compare a.kind.text b.kind.text))

/-- Whether `a` stands before `b` or at the same place of the order. -/
def le (a b : Finding) : Bool := (cmp a b).isLE

/-- The fields of a finding in a report. -/
def toFields (f : Finding) : List (String × Value) :=
  [("file", .str f.location.file), ("line", .int f.location.line), ("severity", .str f.severity),
    ("message", .str f.message), ("scope", .str f.symbol.scope), ("name", .str f.symbol.name),
    ("arity", .int f.symbol.arity), ("signature", .str f.symbol.signature),
    ("analyzer", .str f.kind.analyzer), ("kind", .str f.kind.text)]

/-- A finding as an object. -/
def toValue (f : Finding) : Value := .dict f.toFields

end Finding

end Deadwood
