import Deadwood.Fact

/-!
# The store of collected facts

Units are collected one after the other or at the same time, and each batch of facts is appended to
the facts of its unit in one step. A unit also has the digest of its source and the name of its
module, once they are known.
-/

namespace Deadwood

/-- The facts collected so far, by unit. -/
structure Store where
  facts : Table String (List Fact) := ∅
  digests : Table String String := ∅
  modules : Table String String := ∅
deriving Repr

namespace Store

/-- Appends a batch of facts to a unit. -/
def extend (st : Store) (unit : String) (batch : List Fact) : Store :=
  { st with facts := st.facts.update unit fun old => old.getD [] ++ batch }

/-- Registers a unit; an empty digest or module leaves what is known. -/
def mark (st : Store) (unit digest module : String) : Store where
  facts := st.facts.insertNew unit []
  digests := if digest = "" then st.digests else st.digests.insert unit digest
  modules := if module = "" then st.modules else st.modules.insert unit module

/-- The digest of a unit, empty if unknown. -/
def digest (st : Store) (unit : String) : String := st.digests.findD unit ""

/-- The module of a unit, empty if unknown. -/
def module (st : Store) (unit : String) : String := st.modules.findD unit ""

/-- The facts of a unit. -/
def factsOf (st : Store) (unit : String) : List Fact := st.facts.findD unit []

/-- The units in the order in which they came. -/
def units (st : Store) : List String := st.facts.keys

end Store

end Deadwood
