import Deadwood.Text.Cut
import Deadwood.Text.Point

/-!
# Lines and columns

* `expandTabs` fills up every tab to the next multiple of eight columns.
* `firstLine` is a text up to its first line end, of whatever kind.
-/

namespace Deadwood.Text

/-- Replaces tabs by blanks up to the next multiple of eight, the text beginning at `column`. A mark
stands in the column of the character behind it; `marked` says whether one stands before the
text. -/
def expandFrom (column : Nat) (marked : Bool) : List Char → List Char
  | [] => []
  | c :: rest =>
    if c = '\t' then
      List.replicate (8 - column % 8) ' ' ++ expandFrom (column + (8 - column % 8)) false rest
    else if c = '\n' || c = '\r' then c :: expandFrom 0 false rest
    else if c = mark && !marked then c :: expandFrom column true rest
    else c :: expandFrom (column + 1) false rest

/-- The text with tabs replaced by blanks up to the next multiple of eight columns. -/
def expandTabs (s : String) : String := .ofList (expandFrom 0 false s.toList)

/-- Whether a character ends a line. -/
def endsLine (c : Char) : Bool :=
  ['\n', '\r', '\x0b', '\x0c', '\x1c', '\x1d', '\x1e', '\u0085', '\u2028', '\u2029'].contains c

/-- The text before the first line end. -/
def firstLine (s : String) : String := .ofList (s.toList.takeWhile (!endsLine ·))

end Deadwood.Text
