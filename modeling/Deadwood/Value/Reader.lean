import Deadwood.Table
import Deadwood.Text.Integer
import Deadwood.Text.Point
import Deadwood.Value

/-!
# Reading JSON

`Value.ofJson` reads a whole JSON document. Besides the standard grammar the words `NaN`, `Infinity`
and `-Infinity` are numbers. A field name that comes twice keeps its first place and its last value.
A document that does not follow the grammar has no value, and an integer of too many digits in it is
a fault of its own, as soon as it is met.
-/

namespace Deadwood.Value

/-- Why a document has no value. -/
inductive ReadFault where
  /-- It does not follow the grammar. -/
  | malformed
  /-- An integer has more than `Text.maxDigits` digits. -/
  | tooLong
deriving Repr, DecidableEq

/-- Removes the white space that may stand between tokens. -/
def skipSpace : List Char → List Char :=
  List.dropWhile fun c => c = ' ' || c = '\t' || c = '\n' || c = '\r'

/-- The value of a hexadecimal digit. -/
def hexDigit? (c : Char) : Option Nat :=
  if '0' ≤ c && c ≤ '9' then some (c.toNat - 48)
  else if 'a' ≤ c && c ≤ 'f' then some (c.toNat - 87)
  else if 'A' ≤ c && c ≤ 'F' then some (c.toNat - 55)
  else none

/-- The code unit written by four hexadecimal digits. -/
def codeUnit? : List Char → Option (Nat × List Char)
  | a :: b :: c :: d :: rest => do
    let a ← hexDigit? a
    let b ← hexDigit? b
    let c ← hexDigit? c
    let d ← hexDigit? d
    pure (((a * 16 + b) * 16 + c) * 16 + d, rest)
  | _ => none

/-- The character written by the letter after a backslash. -/
def escape? : Char → Option Char
  | '"' => some '"'
  | '\\' => some '\\'
  | '/' => some '/'
  | 'b' => some (Char.ofNat 8)
  | 'f' => some (Char.ofNat 12)
  | 'n' => some '\n'
  | 'r' => some '\r'
  | 't' => some '\t'
  | _ => none

/-- The characters of a quoted text after its opening quote, and what follows the closing one. -/
def readText : Nat → List Char → Option (List Char × List Char)
  | 0, _ => none
  | _ + 1, [] => none
  | _ + 1, '"' :: rest => some ([], rest)
  | fuel + 1, '\\' :: 'u' :: rest => do
    let (hi, rest) ← codeUnit? rest
    let (point, rest) ←
      if 0xD800 ≤ hi && hi ≤ 0xDBFF then
        match rest with
        | '\\' :: 'u' :: rest' =>
          match codeUnit? rest' with
          | some (lo, rest'') =>
            if 0xDC00 ≤ lo && lo ≤ 0xDFFF then
              some (0x10000 + (hi - 0xD800) * 0x400 + (lo - 0xDC00), rest'')
            else some (hi, rest)
          | none => none
        | _ => some (hi, rest)
      else some (hi, rest)
    let (cs, rest) ← readText fuel rest
    pure (Text.ofPoint point ++ cs, rest)
  | fuel + 1, '\\' :: c :: rest => do
    let c ← escape? c
    let (cs, rest) ← readText fuel rest
    pure (c :: cs, rest)
  | fuel + 1, c :: rest => do
    guard (32 ≤ c.toNat && c ≠ '\\')
    let (cs, rest) ← readText fuel rest
    pure (c :: cs, rest)

/-- Decimal digits at the front. -/
def spanDigits (cs : List Char) : List Char × List Char := cs.span fun c => '0' ≤ c && c ≤ '9'

/-- The number that ASCII digits write. -/
def digitsValue (cs : List Char) : Nat := Text.ofDigits (cs.map fun c => c.toNat - 48)

/-- The exponent part of a number, if one stands at the front. -/
def readExponent (cs : List Char) : Option (Int × List Char) :=
  match cs with
  | c :: rest =>
    if c = 'e' || c = 'E' then
      let (sign, rest) : Int × List Char := match rest with
        | '-' :: r => (-1, r)
        | '+' :: r => (1, r)
        | r => (1, r)
      match spanDigits rest with
      | ([], _) => none
      | (ds, rest) => some (sign * digitsValue ds, rest)
    else none
  | [] => none

/-- A number without its sign. -/
def readNumber (negative : Bool) (cs : List Char) : Except ReadFault (Value × List Char) :=
  let whole? : Option (List Char × List Char) := match cs with
    | '0' :: rest => some (['0'], rest)
    | _ => match spanDigits cs with
      | ([], _) => none
      | found => some found
  match whole? with
  | none => .error .malformed
  | some (whole, rest) =>
    let (fraction, rest) := match rest with
      | '.' :: r => match spanDigits r with
        | ([], _) => ([], rest)
        | found => found
      | _ => ([], rest)
    match readExponent rest with
    | some (e, rest) =>
      .ok (.float (.ofDecimal negative (digitsValue (whole ++ fraction)) (e - fraction.length)),
        rest)
    | none =>
      if fraction.isEmpty then
        if whole.length ≤ Text.maxDigits then
          let n : Int := digitsValue whole
          .ok (.int (if negative then -n else n), rest)
        else .error .tooLong
      else
        .ok (.float (.ofDecimal negative (digitsValue (whole ++ fraction)) (-fraction.length)),
          rest)

/-- What follows `word` in `cs`. -/
def afterWord? (word : String) (cs : List Char) : Option (List Char) :=
  if word.toList.isPrefixOf cs then some (cs.drop word.length) else none

/-- A word at the front that stands for a value. -/
def readWord? (cs : List Char) : Option (Value × List Char) :=
  let word (w : String) (v : Value) := (afterWord? w cs).map fun rest => (v, rest)
  word "null" .null <|> word "true" (.bool true) <|> word "false" (.bool false) <|>
    word "NaN" (.float .nan) <|> word "Infinity" (.float (.infinite false)) <|>
    word "-Infinity" (.float (.infinite true))

/-- A word or a number at the front. -/
def readAtom (cs : List Char) : Except ReadFault (Value × List Char) :=
  match readWord? cs with
  | some found => .ok found
  | none => match cs with
    | '-' :: rest => readNumber true rest
    | _ => readNumber false cs

/-- Stores a field, keeping the place of a name that came before. -/
def addField (fields : List (String × Value)) (k : String) (v : Value) : List (String × Value) :=
  ((Table.mk fields).insert k v).entries

mutual

/-- A value at the front (after white space) and what follows it. -/
def readValue : Nat → List Char → Except ReadFault (Value × List Char)
  | 0, _ => .error .malformed
  | fuel + 1, cs =>
    match skipSpace cs with
    | '[' :: rest =>
      match skipSpace rest with
      | ']' :: rest => .ok (.list [], rest)
      | rest => (readItems fuel [] rest).map fun (items, rest) => (.list items.reverse, rest)
    | '\x7b' :: rest =>
      match skipSpace rest with
      | '\x7d' :: rest => .ok (.dict [], rest)
      | rest => (readFields fuel [] rest).map fun (fields, rest) => (.dict fields, rest)
    | '"' :: rest => match readText (rest.length + 1) rest with
      | some (s, rest) => .ok (.str (.ofList s), rest)
      | none => .error .malformed
    | rest => readAtom rest

/-- The items of a list up to its closing bracket, behind those already read (in reverse). -/
def readItems : Nat → List Value → List Char → Except ReadFault (List Value × List Char)
  | 0, _, _ => .error .malformed
  | fuel + 1, done, cs =>
    match readValue fuel cs with
    | .error f => .error f
    | .ok (v, rest) =>
      match skipSpace rest with
      | ']' :: rest => .ok (v :: done, rest)
      | ',' :: rest => readItems fuel (v :: done) rest
      | _ => .error .malformed

/-- The fields of an object up to its closing brace, behind those already read. -/
def readFields :
    Nat → List (String × Value) → List Char → Except ReadFault (List (String × Value) × List Char)
  | 0, _, _ => .error .malformed
  | fuel + 1, done, cs =>
    match skipSpace cs with
    | '"' :: rest =>
      match readText (rest.length + 1) rest with
      | none => .error .malformed
      | some (k, rest) =>
        match skipSpace rest with
        | ':' :: rest =>
          match readValue fuel rest with
          | .error f => .error f
          | .ok (v, rest) =>
            let done := addField done (.ofList k) v
            match skipSpace rest with
            | '\x7d' :: rest => .ok (done, rest)
            | ',' :: rest => readFields fuel done rest
            | _ => .error .malformed
        | _ => .error .malformed
    | _ => .error .malformed

end

/-- The value of a JSON document. -/
def ofJson (s : String) : Except ReadFault Value :=
  match readValue (s.length + 1) s.toList with
  | .error f => .error f
  | .ok (v, rest) => if (skipSpace rest).isEmpty then .ok v else .error .malformed

end Deadwood.Value
