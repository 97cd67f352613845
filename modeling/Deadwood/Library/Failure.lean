/-!
# Answers of libraries

Sources, documents and patterns are read, and options are checked, by libraries. A library may
refuse what it is given, which is one of its answers, or it may break down.
-/

namespace Deadwood.Library

/-- How a library fails. -/
inductive Failure (ε : Type) where
  /-- It refuses what it is given. -/
  | refused (e : ε)
  /-- It breaks down. -/
  | broken (what : String)
deriving Repr, DecidableEq

/-- What a library answers, which refuses with an error of the first type. -/
abbrev Answer (ε α : Type) := Except (Failure ε) α

end Deadwood.Library
