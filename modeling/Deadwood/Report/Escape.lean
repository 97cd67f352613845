import Deadwood.Text.Cut

/-!
# Escaping for HTML

`escape` writes the five characters that mean something in HTML as entities and keeps all others. It
goes over the text once for each of them.
-/

namespace Deadwood.Report

/-- The characters that mean something in HTML and the entities that stand for them. The entities
begin with an ampersand, so that this character comes first. -/
def entities : List (Char × String) :=
  [('&', "&amp;"), ('<', "&lt;"), ('>', "&gt;"), ('"', "&quot;"), ('\'', "&#39;")]

/-- A text as it is written in HTML: one character after the other is replaced in the whole text. -/
def escape (s : String) : String := Text.replaceInTurn entities s

end Deadwood.Report
