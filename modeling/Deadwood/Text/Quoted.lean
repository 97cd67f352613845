import Deadwood.Text.Printable

/-!
# Quoted texts in messages

A text inside a message stands in single quotes, or in double quotes if it holds a single quote and
no double quote. The backslash, the quote that is used, line breaks and tabs are escaped by a
backslash; any other character that is not printable is written by its code point.
-/

namespace Deadwood.Text

/-- The lower-case hexadecimal digits of `n`, at least `width` of them. -/
def hex (width n : Nat) : List Char :=
  let ds := Nat.toDigits 16 n
  List.replicate (width - ds.length) '0' ++ ds

/-- How a quoted text shows `c` when the quote mark is `q`. -/
def quotedChar (q c : Char) : List Char :=
  if c = '\\' || c = q then ['\\', c]
  else if c = '\n' then ['\\', 'n']
  else if c = '\r' then ['\\', 'r']
  else if c = '\t' then ['\\', 't']
  else if isPrintable c then [c]
  else if c.toNat < 0x100 then '\\' :: 'x' :: hex 2 c.toNat
  else if c.toNat < 0x10000 then '\\' :: 'u' :: hex 4 c.toNat
  else '\\' :: 'U' :: hex 8 c.toNat

/-- The quote mark used for `s`. -/
def quoteMark (s : String) : Char :=
  if s.toList.contains '\'' && !s.toList.contains '"' then '"' else '\''

/-- `s` as a message shows it. -/
def quoted (s : String) : String :=
  let q := quoteMark s
  .ofList (q :: (s.toList.flatMap (quotedChar q) ++ [q]))

end Deadwood.Text
