import Deadwood.Text.Integer

/-!
# Numerals

The shape of a numeric literal. Only its extent matters, and whether it is imaginary: no analysis
looks at the value.

* `Numeral.scan?` takes a numeral off the front of a text.
* `Numeral.mayFollow` says which text may stand directly behind one.
-/

namespace Deadwood.Source.Numeral

/-- Drops a run of digits in which single underscores may stand before a digit; none if an
underscore stands elsewhere. -/
def dropDigits (digit : Char → Bool) : List Char → Option (List Char)
  | [] => some []
  | c :: rest =>
    if digit c then dropDigits digit rest
    else if c = '_' then
      match rest with
      | d :: rest' => if digit d then dropDigits digit rest' else none
      | [] => none
    else some (c :: rest)

/-- Whether a text may stand directly behind a numeral: it begins with no character of a name, or
with a word that can follow an operand. -/
def mayFollow (cs : List Char) : Bool :=
  ["and", "else", "for", "if", "in", "is", "or", "not"].any (fun w => w.toList.isPrefixOf cs) ||
    match cs with
    | [] => true
    | c :: _ => !(c.isAlphanum || c = '_' || c.toNat ≥ 128)

/-- Ends a numeral in front of `rest`. -/
def ending (imaginary : Bool) (rest : List Char) : Option (Bool × List Char) :=
  if mayFollow rest then some (imaginary, rest) else none

/-- What follows the digits of the mantissa and the exponent. -/
def suffix : List Char → Option (Bool × List Char)
  | 'j' :: rest => ending true rest
  | 'J' :: rest => ending true rest
  | rest => ending false rest

/-- Whether a character marks an exponent. -/
def isExponentMark (c : Char) : Bool := c = 'e' || c = 'E'

/-- The exponent, if there is one, and what follows. A mark without digits belongs to what
follows. -/
def exponent : List Char → Option (Bool × List Char)
  | e :: sign :: d :: rest =>
    if isExponentMark e && (sign = '+' || sign = '-') then
      if d.isDigit then dropDigits Char.isDigit rest >>= suffix else none
    else if isExponentMark e && sign.isDigit then
      dropDigits Char.isDigit (d :: rest) >>= suffix
    else suffix (e :: sign :: d :: rest)
  | rest => suffix rest

/-- The digits after the point and what follows. -/
def fraction : List Char → Option (Bool × List Char)
  | d :: rest =>
    if d.isDigit then dropDigits Char.isDigit rest >>= exponent else exponent (d :: rest)
  | [] => exponent []

/-- What follows the digits before the point, `whole`, of a decimal numeral. -/
def decimal (whole rest : List Char) : Option (Bool × List Char) :=
  match rest with
  | '.' :: rest => fraction rest
  | c :: _ =>
    if isExponentMark c || c = 'j' || c = 'J' then exponent rest
    else if whole.head? = some '0' && whole.any fun d => d.isDigit && d ≠ '0' then none
    else if whole.countP Char.isDigit > Text.maxDigits then none
    else ending false rest
  | [] => ending false []

/-- The digits of a numeral in another base, whose mark has been read. -/
def based (digit : Char → Bool) (cs : List Char) : Option (Bool × List Char) :=
  match cs with
  | c :: _ => if digit c || c = '_' then dropDigits digit cs >>= ending false else none
  | [] => none

/-- Takes a numeral off the front of a text that begins with a digit, or with a point and a digit:
whether it is imaginary, and the rest. -/
def scan? (cs : List Char) : Option (Bool × List Char) :=
  match cs with
  | '.' :: rest => fraction rest
  | '0' :: b :: rest =>
    match b.toLower with
    | 'x' => based (fun c => c.isDigit || ('a' ≤ c.toLower && c.toLower ≤ 'f')) rest
    | 'o' => based (fun c => '0' ≤ c && c ≤ '7') rest
    | 'b' => based (fun c => c = '0' || c = '1') rest
    | _ => do
      let after ← dropDigits Char.isDigit cs
      decimal (cs.take (cs.length - after.length)) after
  | _ => do
    let after ← dropDigits Char.isDigit cs
    decimal (cs.take (cs.length - after.length)) after

end Deadwood.Source.Numeral
