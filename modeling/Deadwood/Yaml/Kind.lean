import Deadwood.Calendar
import Deadwood.Number.Decimal
import Deadwood.Setting
import Deadwood.Text.Cut

/-!
# What a scalar stands for

A scalar without quotes is a text unless it has the form of another kind of value. Numbers may be
written in several bases, with underscores and, in base sixty, with colons.

* `Kind.of` is the kind of a plain text.
* `Kind.read` is the value of a text of a kind.
-/

namespace Deadwood.Yaml

/-- The kinds of scalars. -/
inductive Kind where
  | null
  | bool
  | int
  | float
  | date
  /-- The key whose value is merged into a mapping. -/
  | merge
  /-- The sign that names the value of a mapping. -/
  | value
  | text
deriving Repr, DecidableEq, Inhabited

/-- What is wrong with a scalar that was taken for a value of its kind. -/
inductive BadValue where
  /-- The number or the date does not exist, or the number has too many digits. -/
  | missing
  /-- Nothing stands where a number is expected. -/
  | empty
  /-- The text is no word for a truth value. -/
  | noTruth
  /-- The text does not have the form of a date. -/
  | noDate
  /-- The number has more digits in base sixty than can be weighed. -/
  | tooLarge
deriving Repr, DecidableEq, Inhabited

/-- What is wrong with a scalar, in words. -/
def BadValue.text : BadValue → String
  | .missing => "a number or a date does not exist"
  | .empty => "a number is expected"
  | .noTruth => "a truth value is expected"
  | .noDate => "a date is expected"
  | .tooLarge => "a number is too large"

/-- Why a text has no value. -/
inductive Fault where
  /-- The text is not well formed. -/
  | malformed
  | badValue (b : BadValue)
deriving Repr, DecidableEq, Inhabited

namespace Kind

/-! ## Forms -/

/-- A text without its sign, and whether that is a minus. -/
def unsigned : List Char → Bool × List Char
  | '-' :: rest => (true, rest)
  | '+' :: rest => (false, rest)
  | cs => (false, cs)

/-- Whether a text begins with a digit and goes on with digits and underscores. -/
def isNumeral : List Char → Bool
  | [] => false
  | c :: rest => c.isDigit && rest.all fun x => x.isDigit || x = '_'

/-- Whether a text is a digit in base sixty. -/
def isSixtieth : List Char → Bool
  | [a] => a.isDigit
  | [a, b] => '0' ≤ a && a ≤ '5' && b.isDigit
  | _ => false

/-- Whether a text is a number in base sixty of at least two digits. -/
def isSexagesimal (cs : List Char) : Bool :=
  match Text.splitChars ':' cs with
  | first :: rest => isNumeral first && !rest.isEmpty && rest.all isSixtieth
  | [] => false

/-- Whether digits, of which there is at least one, all satisfy `p`, underscores apart. -/
def isRun (p : Char → Bool) (cs : List Char) : Bool := !cs.isEmpty && cs.all fun c => p c || c = '_'

/-- Whether a text has the form of an integer. -/
def isInteger (cs : List Char) : Bool :=
  let body := (unsigned cs).2
  match body with
  | '0' :: rest =>
    rest.isEmpty || isRun (fun c => '0' ≤ c && c ≤ '7') rest ||
      match rest with
      | 'b' :: more => isRun (fun c => c = '0' || c = '1') more
      | 'x' :: more => isRun (fun c => (Decimal.digit? c).isSome) more
      | _ => false
  | _ => isNumeral body || isSexagesimal body

/-- Whether a text is an exponent, with its sign, or empty. -/
def isExponent : List Char → Bool
  | [] => true
  | e :: sign :: ds =>
    (e = 'e' || e = 'E') && (sign = '+' || sign = '-') && !ds.isEmpty && ds.all Char.isDigit
  | _ => false

/-- Whether a text is infinity. -/
def isInfinite (cs : List Char) : Bool :=
  [".inf", ".Inf", ".INF"].contains (String.ofList (unsigned cs).2)

/-- Whether a text is no number as a number. -/
def isNan (cs : List Char) : Bool := [".nan", ".NaN", ".NAN"].contains (String.ofList cs)

/-- Whether a text has the form of a number with a point. -/
def isFloat (cs : List Char) : Bool :=
  let (whole, rest) := (unsigned cs).2.span (· ≠ '.')
  isInfinite cs || isNan cs ||
    match rest with
    | '.' :: more =>
      let (fraction, tail) := more.span fun c => c.isDigit || c = '_'
      (isNumeral whole && isExponent tail) ||
        (isSexagesimal whole && tail.isEmpty) ||
        (cs.head? = some '.' && isNumeral fraction && isExponent tail)
    | _ => false

/-- The words for truth. -/
def yesWords : List String := ["yes", "Yes", "YES", "true", "True", "TRUE", "on", "On", "ON"]

/-- The words for falsehood. -/
def noWords : List String := ["no", "No", "NO", "false", "False", "FALSE", "off", "Off", "OFF"]

/-- The words for nothing. -/
def nullWords : List String := ["~", "null", "Null", "NULL", ""]

/-! ## Dates -/

/-- The number of between `least` and `most` digits at the front, and the rest. -/
def count? (least most : Nat) (cs : List Char) : Option (Nat × List Char) :=
  let ds := (cs.takeWhile Char.isDigit).take most
  if least ≤ ds.length then some (Decimal.value ds, cs.drop ds.length) else none

/-- The rest behind a character. -/
def after? (c : Char) : List Char → Option (List Char)
  | x :: rest => if x = c then some rest else none
  | [] => none

/-- The parts of a date and, if there is one, of a time. -/
structure Moment where
  year : Nat
  month : Nat
  day : Nat
  time : Option (Nat × Nat × Nat) := none
  /-- How far the time zone is away, in minutes. -/
  offset : Nat := 0

/-- The minutes that a time zone is away, written as hours and, if there are any, minutes. -/
def zone? (cs : List Char) : Option Nat :=
  match count? 1 2 cs with
  | some (hours, []) => some (60 * hours)
  | some (hours, ':' :: more) =>
    match count? 2 2 more with
    | some (minutes, []) => some (60 * hours + minutes)
    | _ => none
  | _ => none

/-- What may follow the seconds, a fraction and a time zone, as the minutes that the zone is
away. -/
def timeTail? (cs : List Char) : Option Nat :=
  let cs := match cs with
    | '.' :: rest => rest.dropWhile Char.isDigit
    | _ => cs
  match cs.dropWhile fun c => c = ' ' || c = '\t' with
  | [] => if cs.isEmpty then some 0 else none
  | ['Z'] => some 0
  | sign :: rest => if sign = '+' || sign = '-' then zone? rest else none

/-- The rest behind what divides a date from a time. -/
def afterDivider? : List Char → Option (List Char)
  | c :: rest =>
    if c = 'T' || c = 't' then some rest
    else if c = ' ' || c = '\t' then some (rest.dropWhile fun x => x = ' ' || x = '\t')
    else none
  | [] => none

/-- The date, with or without a time, that a text has the form of. -/
def moment? (cs : List Char) : Option Moment := do
  let (year, cs) ← count? 4 4 cs
  let (month, cs) ← count? 1 2 (← after? '-' cs)
  let (day, cs) ← count? 1 2 (← after? '-' cs)
  if cs.isEmpty then some { year, month, day }
  else
    let (hour, cs) ← count? 1 2 (← afterDivider? cs)
    let (minute, cs) ← count? 2 2 (← after? ':' cs)
    let (second, cs) ← count? 2 2 (← after? ':' cs)
    some { year, month, day, time := some (hour, minute, second), offset := ← timeTail? cs }

/-- Whether a plain text has the form of a date: without a time, month and day have two digits. -/
def isMoment (cs : List Char) : Bool := (moment? cs).any fun m => m.time.isSome || cs.length = 10

/-! ## Values -/

/-- The kind of a plain text. -/
def of (s : String) : Kind :=
  let cs := s.toList
  if yesWords.contains s || noWords.contains s then .bool
  else if isFloat cs then .float
  else if isInteger cs then .int
  else if s = "<<" then .merge
  else if nullWords.contains s then .null
  else if isMoment cs then .date
  else if s = "=" then .value
  else .text

/-- The number that digits in base sixty write. -/
def ofSixtieths (ds : List Nat) : Nat := ds.foldl (fun n d => 60 * n + d) 0

/-- The number that a text without sign and underscores writes. -/
def magnitude? (cs : List Char) : Option Nat :=
  match cs with
  | '0' :: 'b' :: rest => Decimal.natural? 2 rest
  | '0' :: 'x' :: rest => Decimal.natural? 16 rest
  | '0' :: rest => if rest.isEmpty then some 0 else Decimal.natural? 8 rest
  | _ =>
    if cs.contains ':' then ((Text.splitChars ':' cs).mapM Decimal.integer?).map ofSixtieths
    else Decimal.integer? cs

/-- The value of an integer. -/
def integer? (s : String) : Except BadValue Int :=
  let (negative, cs) := unsigned (s.toList.filter (· ≠ '_'))
  if cs.isEmpty then .error .empty
  else match magnitude? cs with
    | some n => .ok (if negative then -(n : Int) else n)
    | none => .error .missing

/-- The largest number of digits in base sixty that a number with a fraction can have. -/
def maxSixtieths : Nat := 174

/-- The value of a number in base sixty with a fraction. -/
def sexagesimal? (negative : Bool) (cs : List Char) : Except BadValue Binary64 :=
  let (whole, rest) := cs.span (· ≠ '.')
  let fraction := rest.drop 1
  match (Text.splitChars ':' whole).mapM (Decimal.natural? 10) with
  | some ds =>
    if !fraction.all Char.isDigit then .error .missing
    else if maxSixtieths < ds.length then .error .tooLarge
    else
      let scale := Nat.pow 10 fraction.length
      .ok (.ofRatio negative (ofSixtieths ds * scale + Decimal.value fraction) scale)
  | none => .error .missing

/-- The value of a number with a point. -/
def float? (s : String) : Except BadValue Binary64 :=
  match (s.toList.filter (· ≠ '_')).map Char.toLower with
  | [] => .error .empty
  | cs =>
    let (negative, cs) := unsigned cs
    if cs = ".inf".toList then .ok (.infinite negative)
    else if cs = ".nan".toList then .ok .nan
    else if cs.contains ':' then sexagesimal? negative cs
    else match Decimal.double? negative cs with
      | some x => .ok x
      | none => .error .missing

/-- The minutes of a day. -/
def minutesOfDay : Nat := 1440

/-- The value of a date, if it exists; a time zone is less than a day away. -/
def date? (s : String) : Except BadValue Setting :=
  match moment? s.toList with
  | none => .error .noDate
  | some m =>
    if !Calendar.isDate m.year m.month m.day then .error .missing
    else match m.time with
      | none => .ok (.moment "date" [m.year, m.month, m.day])
      | some (h, min, sec) =>
        if Calendar.isTime h min sec && m.offset < minutesOfDay then
          .ok (.moment "datetime" ([m.year, m.month, m.day] ++ Calendar.timeParts h min sec 0))
        else .error .missing

/-- The truth value that a word stands for, in any case. -/
def truth? (s : String) : Except BadValue Bool :=
  let word := String.ofList (s.toList.map Char.toLower)
  if ["yes", "true", "on"].contains word then .ok true
  else if ["no", "false", "off"].contains word then .ok false
  else .error .noTruth

/-- A value that may be bad. -/
def orBad {α : Type} (make : α → Setting) : Except BadValue α → Except Fault Setting
  | .ok a => .ok (make a)
  | .error b => .error (.badValue b)

/-- The value of a text of a kind. -/
def read (k : Kind) (s : String) : Except Fault Setting :=
  match k with
  | .null => .ok .null
  | .bool => orBad .bool (truth? s)
  | .int => orBad .int (integer? s)
  | .float => orBad .float (float? s)
  | .date => orBad id (date? s)
  | .merge | .value => .error .malformed
  | .text => .ok (.str s)

end Kind

end Deadwood.Yaml
