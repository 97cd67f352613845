/-!
# Sets of characters

A `CharSet` is given by the increasing list of code points at which membership changes. Code points
below the first of them are outside, those from the first up to the second inside, and so on.
-/

namespace Deadwood.Text

/-- A set of characters, as the code points at which membership flips. -/
structure CharSet where
  /-- The flips, in increasing order. -/
  flips : List Nat

namespace CharSet

/-- Membership of code point `n`, when membership just before the listed flips is `inside`. -/
def holds (n : Nat) (inside : Bool) : List Nat → Bool
  | [] => inside
  | x :: rest => if n < x then inside else holds n (!inside) rest

/-- Whether `c` belongs to the set. -/
def mem (s : CharSet) (c : Char) : Bool := holds c.toNat false s.flips

end CharSet

end Deadwood.Text
