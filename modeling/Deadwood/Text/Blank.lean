import Deadwood.Text.CharSet

/-!
# Blank characters

The characters that trimming removes: the white space of the Unicode bidirectional classes
B, S and WS and the space separators.
-/

namespace Deadwood.Text

/-- White space. -/
def blank : CharSet := ⟨[
  9, 14, 28, 33, 133, 134, 160, 161, 5760, 5761, 8192, 8203, 8232, 8234, 8239, 8240, 8287, 8288,
  12288, 12289]⟩

/-- Whether `c` is white space. -/
def isBlank (c : Char) : Bool := blank.mem c

end Deadwood.Text
