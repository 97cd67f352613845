import Deadwood.Number.Binary64
import Deadwood.Text.Integer

/-!
# Written numbers

The numbers that configuration files write in decimal or another base.

* `natural?` reads digits of any base up to sixteen, `integer?` those of base ten, unless they are
  too many.
* `double?` reads a number with a point or an exponent.
-/

namespace Deadwood.Decimal

/-- The value of a digit. -/
def digit? (c : Char) : Option Nat :=
  if '0' ≤ c && c ≤ '9' then some (c.toNat - 48)
  else if 'a' ≤ c && c ≤ 'f' then some (c.toNat - 87)
  else if 'A' ≤ c && c ≤ 'F' then some (c.toNat - 55)
  else none

/-- The number that digits of a base write; there must be a digit. -/
def natural? (base : Nat) (cs : List Char) : Option Nat := do
  if cs.isEmpty then none
  else
    let ds ← cs.mapM digit?
    if ds.all (· < base) then some (ds.foldl (fun n d => base * n + d) 0) else none

/-- The number that decimal digits write; there must be a digit, and not too many. -/
def integer? (cs : List Char) : Option Nat :=
  if cs.length ≤ Text.maxDigits then natural? 10 cs else none

/-- The number that decimal digits write, zero for none. -/
def value (cs : List Char) : Nat := Text.ofDigits (cs.map fun c => c.toNat - 48)

/-- The exponent at the end of a number: a letter, a sign that may be missing, and digits. -/
def exponent? : List Char → Option Int
  | [] => some 0
  | c :: rest =>
    if c = 'e' || c = 'E' then
      match rest with
      | '-' :: ds => (natural? 10 ds).map fun n => -(n : Int)
      | '+' :: ds => (natural? 10 ds).map Int.ofNat
      | ds => (natural? 10 ds).map Int.ofNat
    else none

/-- The double nearest to a number that has at least one digit around its point. -/
def double? (negative : Bool) (cs : List Char) : Option Binary64 := do
  let (whole, rest) := cs.span Char.isDigit
  let (fraction, rest) := match rest with
    | '.' :: more => more.span Char.isDigit
    | _ => ([], rest)
  if whole.isEmpty && fraction.isEmpty then none
  else
    let e ← exponent? rest
    some (.ofDecimal negative (value (whole ++ fraction)) (e - fraction.length))

end Deadwood.Decimal
