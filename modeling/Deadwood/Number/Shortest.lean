import Deadwood.Number.Binary64

/-!
# The shortest decimal of a double

`digits` finds the fewest decimal digits that read back as the same double, and among decimals with
so many digits the one nearest to it. `Binary64.text` writes them: positional notation for decimal
exponents from -4 to 15, else scientific notation with a signed exponent of at least two digits; an
integral value keeps a `.0`.
-/

namespace Deadwood.Binary64

/-- A rounding interval around `num / den`: from `low / den` to `high / den`, ends included or
not. -/
structure Interval where
  low : Nat
  num : Nat
  high : Nat
  den : Nat
  closed : Bool

/-- The decimals that round to the double `m · 2^q`. -/
def interval (m : Nat) (q : Int) : Interval :=
  let up := Nat.pow 2 q.toNat
  let den := 4 * Nat.pow 2 (-q).toNat
  let below := if m = Nat.pow 2 52 && q > -1074 then 1 else 2
  { low := (4 * m - below) * up, num := 4 * m * up, high := (4 * m + 2) * up, den
    closed := m % 2 = 0 }

/-- Whether `d · 10^k` lies in the interval. -/
def Interval.contains (i : Interval) (d : Nat) (k : Int) : Bool :=
  let point := d * Nat.pow 10 k.toNat * i.den
  let scale := Nat.pow 10 (-k).toNat
  if i.closed then i.low * scale ≤ point && point ≤ i.high * scale
  else i.low * scale < point && point < i.high * scale

/-- The decimal exponent of the leading digit of a positive ratio, searched downward from `e`. -/
def leadingExponent (num den : Nat) : Nat → Int → Int
  | 0, e => e
  | fuel + 1, e =>
    if Nat.pow 10 e.toNat * den ≤ num * Nat.pow 10 (-e).toNat then e
      else leadingExponent num den fuel (e - 1)

/-- The decimal with unit `10^k` that lies in the interval nearest to its centre. -/
def Interval.nearest? (i : Interval) (k : Int) : Option Nat :=
  let top := i.num * Nat.pow 10 (-k).toNat
  let bottom := i.den * Nat.pow 10 k.toNat
  let d := top / bottom
  let r := top % bottom
  let lowFits := i.contains d k
  let highFits := i.contains (d + 1) k
  if lowFits && highFits then
    some (if 2 * r < bottom || (2 * r = bottom && d % 2 = 0) then d else d + 1)
  else if lowFits then some d
  else if highFits then some (d + 1)
  else none

/-- Tries `n`, `n + 1`, … digits, the leading one at `10^e`. -/
def Interval.search (i : Interval) (e : Int) : Nat → Nat → Nat × Int
  | 0, n =>
    (roundDiv (i.num * Nat.pow 10 (n - 1 - e).toNat) (i.den * Nat.pow 10 (e - n + 1).toNat),
      e - n + 1)
  | fuel + 1, n =>
    match i.nearest? (e - n + 1) with
    | some d => if d = 0 then i.search e fuel (n + 1) else (d, e - n + 1)
    | none => i.search e fuel (n + 1)

/-- The shortest decimal `d · 10^k` of the positive double `m · 2^q`. -/
def digits (m : Nat) (q : Int) : Nat × Int :=
  let i := interval m q
  i.search (leadingExponent i.num i.den 700 310) 16 1

/-- The text of a positive decimal. -/
def decimalText (d : Nat) (k : Int) : String :=
  let raw := Nat.toDigits 10 d
  let ds := ((raw.reverse.dropWhile (· = '0')).reverse)
  let e : Int := k + raw.length - 1
  if -4 ≤ e && e < 16 then
    if e < 0 then
      "0." ++ .ofList (List.replicate ((-e).toNat - 1) '0' ++ ds)
    else
      let n := e.toNat + 1
      let whole := ds.take n ++ List.replicate (n - ds.length) '0'
      let rest := ds.drop n
      .ofList (whole ++ '.' :: if rest.isEmpty then ['0'] else rest)
  else
    let point := match ds with
      | [c] => [c]
      | c :: cs => c :: '.' :: cs
      | [] => ['0']
    let ex := Nat.toDigits 10 e.natAbs
    let sign := if e < 0 then '-' else '+'
    .ofList (point ++ 'e' :: sign :: (if ex.length < 2 then '0' :: ex else ex))

/-- The text of a double; the infinities and the undefined value are words. -/
def text : Binary64 → String
  | .nan => "nan"
  | .infinite negative => if negative then "-inf" else "inf"
  | .finite negative m q =>
    let sign := if negative then "-" else ""
    if m = 0 then sign ++ "0.0"
    else
      let (d, k) := digits m q
      sign ++ decimalText d k

/-- The double nearest to the decimal with `places` places that is nearest to `x`, ties to the
even last digit. -/
def roundPlaces (places : Nat) : Binary64 → Binary64
  | .finite negative m q =>
    let scaled := roundDiv (m * Nat.pow 10 places * Nat.pow 2 q.toNat) (Nat.pow 2 (-q).toNat)
    ofDecimal negative scaled (-places)
  | x => x

end Deadwood.Binary64
