import Deadwood.Regex.Reader
import Deadwood.Regex.Search

/-!
# Patterns

A pattern is a regular expression together with the text it was read from.
-/

namespace Deadwood

/-- A regular expression with its source. -/
structure Pattern where
  source : String
  expression : Regex
  /-- The settings that hold for the whole pattern. -/
  flags : Regex.Flags
deriving Repr, DecidableEq

namespace Pattern

/-- Reads a pattern. -/
def compile (source : String) : Except Regex.Error Pattern :=
  (Regex.readPattern { tokens := Regex.Token.scan source.toList }).map fun (r, s) =>
    ⟨source, r, s.flags⟩

/-- Whether the pattern matches somewhere in `s`. -/
def occursIn (p : Pattern) (s : String) : Bool := p.expression.search s

/-- The settings of a pattern by name, in the order in which messages list them. -/
def flagNames (f : Regex.Flags) : List String :=
  [(f.template, "re.TEMPLATE"), (f.ignoreCase, "re.IGNORECASE"), (f.multiline, "re.MULTILINE"),
    (f.dotAll, "re.DOTALL"), (f.verbose, "re.VERBOSE"), (f.ascii, "re.ASCII")].filterMap
      fun (on, name) => if on then some name else none

/-- The pattern as messages show it. -/
def display (p : Pattern) : String :=
  let flags := flagNames p.flags
  "re.compile(" ++ .ofList ((Text.quoted p.source).toList.take 200) ++
    (if flags.isEmpty then "" else ", " ++ "|".intercalate flags) ++ ")"

end Pattern

end Deadwood
