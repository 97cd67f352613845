import Deadwood.Text.Blank
import Deadwood.Text.Digit

/-!
# Reading integers

An integer is written with an optional sign and decimal digits of any script; a single underscore
may stand between two digits, and white space may surround the whole. At most `maxDigits` digits are
accepted, and an integer with more digits is not shown.
-/

namespace Deadwood.Text

/-- The largest number of digits of a written integer. -/
def maxDigits : Nat := 4300

/-- Whether an integer has at most `maxDigits` digits. -/
def isShort (n : Int) : Bool := n.natAbs < Nat.pow 10 maxDigits

/-- The values of the digits of `cs`, where a single underscore may stand between two digits;
`afterDigit` says whether the character before was a digit. -/
def digitValues (afterDigit : Bool) : List Char → Option (List Nat)
  | [] => if afterDigit then some [] else none
  | '_' :: rest => if afterDigit then digitValues false rest else none
  | c :: rest => do
    let d ← decimalValue? c
    let ds ← digitValues true rest
    pure (d :: ds)

/-- The number whose decimal digits are `ds`, most significant first. -/
def ofDigits (ds : List Nat) : Nat := ds.foldl (fun n d => 10 * n + d) 0

/-- The number that digits alone write. -/
def readDigits? (cs : List Char) : Option Nat := do
  let ds ← digitValues false cs
  if ds.length ≤ maxDigits then some (ofDigits ds) else none

/-- The integer that `s` writes. -/
def readInt? (s : String) : Option Int :=
  let core := ((s.toList.dropWhile isBlank).reverse.dropWhile isBlank).reverse
  match core with
  | '-' :: rest => (readDigits? rest).map fun n => -(n : Int)
  | '+' :: rest => (readDigits? rest).map Int.ofNat
  | cs => (readDigits? cs).map Int.ofNat

end Deadwood.Text
