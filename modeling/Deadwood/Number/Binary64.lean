/-!
# Binary floating-point numbers

A double is kept as sign, mantissa and exponent, so that everything about it is exact arithmetic on
natural numbers.

* `ofRatio` is the double nearest to a ratio, ties to the even mantissa; `ofDecimal` the one
  nearest to a decimal.
* `trunc?` drops the fraction, `compare?` compares exactly.
-/

namespace Deadwood

/-- A double: `finite neg m q` stands for `± m · 2^q`. -/
inductive Binary64 where
  | finite (negative : Bool) (mantissa : Nat) (exponent : Int)
  | infinite (negative : Bool)
  | nan
deriving Repr, DecidableEq, Inhabited

/-- The quotient `num / den` rounded to the nearest integer, ties to the even one. -/
def roundDiv (num den : Nat) : Nat :=
  let q := num / den
  let r := num % den
  if 2 * r < den || (2 * r = den && q % 2 = 0) then q else q + 1

namespace Binary64

/-- Zero with a sign. -/
def zero (negative : Bool) : Binary64 := .finite negative 0 (-1074)

/-- `num / den` in units of `2^q`, rounded. -/
def mantissaAt (num den : Nat) (q : Int) : Nat :=
  if 0 ≤ q then roundDiv num (den * Nat.pow 2 q.toNat)
    else roundDiv (num * Nat.pow 2 (-q).toNat) den

/-- The double nearest to `± num / den`, for positive `den`. -/
def ofRatio (negative : Bool) (num den : Nat) : Binary64 :=
  if num = 0 then zero negative
  else
    -- `num / den` lies between `2^(e-1)` and `2^(e+1)`
    let e : Int := (num.log2 : Int) - den.log2
    let fits : Bool := if 0 ≤ e then den * Nat.pow 2 e.toNat ≤ num
      else den ≤ num * Nat.pow 2 (-e).toNat
    let top : Int := if fits then e else e - 1
    let q := max (top - 52) (-1074)
    let m := mantissaAt num den q
    let (m, q) := if m = Nat.pow 2 53 then (Nat.pow 2 52, q + 1) else (m, q)
    if q > 971 then .infinite negative else .finite negative m q

/-- The double nearest to `± digits · 10^exponent`. -/
def ofDecimal (negative : Bool) (digits : Nat) (exponent : Int) : Binary64 :=
  if digits = 0 then zero negative
  else if exponent > 400 then .infinite negative
  else if exponent + (Nat.toDigits 10 digits).length < -400 then zero negative
  else if 0 ≤ exponent then ofRatio negative (digits * Nat.pow 10 exponent.toNat) 1
  else ofRatio negative digits (Nat.pow 10 (-exponent).toNat)

/-- The double nearest to an integer. -/
def ofInt (n : Int) : Binary64 := ofRatio (n < 0) n.natAbs 1

/-- Numerator (signed) and denominator of a finite double. -/
def ratio? : Binary64 → Option (Int × Nat)
  | .finite negative m q =>
    let sign : Int := if negative then -1 else 1
    if 0 ≤ q then some (sign * (m * Nat.pow 2 q.toNat : Nat), 1)
      else some (sign * m, Nat.pow 2 (-q).toNat)
  | _ => none

/-- The integer part, toward zero. -/
def trunc? (x : Binary64) : Option Int := x.ratio?.map fun (n, d) => n.tdiv d

/-- The value, if it is an integer. -/
def integer? (x : Binary64) : Option Int :=
  x.ratio?.bind fun (n, d) => if n % d = 0 then some (n / d) else none

/-- Whether the value is zero. -/
def isZero : Binary64 → Bool
  | .finite _ m _ => m = 0
  | _ => false

/-- Exact comparison; nothing compares with a NaN. -/
def compare? : Binary64 → Binary64 → Option Ordering
  | .nan, _ | _, .nan => none
  | .infinite a, .infinite b => some (compare b a)
  | .infinite a, .finite .. => some (if a then .lt else .gt)
  | .finite .., .infinite b => some (if b then .gt else .lt)
  | x@(.finite ..), y@(.finite ..) => do
    let (n, d) ← x.ratio?
    let (n', d') ← y.ratio?
    pure (compare (n * d') (n' * d))

/-- Exact comparison with an integer. -/
def compareInt? (x : Binary64) (k : Int) : Option Ordering :=
  match x with
  | .nan => none
  | .infinite negative => some (if negative then .lt else .gt)
  | .finite .. => x.ratio?.map fun (n, d) => compare n (k * d)

end Binary64

end Deadwood
