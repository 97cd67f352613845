import Deadwood.Text.Cut

/-!
# Dotted names

Modules and classes are named by segments that are separated by dots.

* `segments`, `last`, `cut` take a name apart.
* `join` and `below` put names together.
* `enclosing` lists a name and its dotted beginnings, the longest first.
-/

namespace Deadwood.Dotted

/-- The segments of a name, at least one. -/
def segments (s : String) : List String := Text.splitOn '.' s

/-- The name with the given segments. -/
def join (parts : List String) : String := ".".intercalate parts

/-- The name of `child` inside `parent`. -/
def below (parent child : String) : String := parent ++ "." ++ child

/-- The name before its last segment, empty for a single segment, and that last segment. -/
def cut (s : String) : String × String := (Text.cutLast '.' s).getD ("", s)

/-- Of a name with a dot, less than the whole stands before the last segment. -/
theorem length_cut_lt {s : String} (h : '.' ∈ s.toList) :
    (cut s).1.toList.length < s.toList.length := by
  unfold cut
  cases hcut : Text.cutLast '.' s with
  | none => exact List.length_pos_of_mem h
  | some parts => exact Text.length_lt_of_cutLast hcut

/-- The last segment. -/
def last (s : String) : String := (cut s).2

/-- The first segment. -/
def first (s : String) : String := (segments s).headD ""

/-- The name and its dotted beginnings, the longest first. -/
def enclosing (s : String) : List String :=
  let parts := segments s
  (List.range parts.length).map fun k => join (parts.take (parts.length - k))

end Deadwood.Dotted
