import Deadwood.Calendar
import Deadwood.Number.Decimal
import Deadwood.Setting
import Deadwood.Source.Literal

/-!
# The scalars of a TOML text

Every reader takes characters from the front and gives what it read together with the rest.

* `text?` reads a text in quotes of any of the four styles.
* `number?` reads an integer or a number with a fraction or an exponent; an integer may have too
  many digits.
* `date?` reads a date, a time or both.
-/

namespace Deadwood.Toml

/-- Why a text describes no table. -/
inductive Fault where
  /-- The text is not well formed. -/
  | malformed
  /-- An integer has too many digits. -/
  | tooLong
deriving Repr, DecidableEq, Inhabited

/-- What was read; if nothing was, the text is not well formed. -/
def orMalformed {α : Type} : Option α → Except Fault α
  | some a => .ok a
  | none => .error .malformed

/-- Whether a character is white space within a line. -/
def isSpace (c : Char) : Bool := c = ' ' || c = '\t'

/-- Whether a character is white space or ends a line. -/
def isSpaceOrBreak (c : Char) : Bool := isSpace c || c = '\n'

/-- Whether a character controls a device; none may stand in texts and comments but the tab. -/
def isControl (c : Char) : Bool := (c.toNat < 32 && c ≠ '\t') || c.toNat = 127

/-! ## Texts -/

/-- What a letter after a backslash stands for. -/
def escape? : Char → Option Char
  | 'b' => some '\x08'
  | 't' => some '\t'
  | 'n' => some '\n'
  | 'f' => some '\x0c'
  | 'r' => some '\r'
  | '"' => some '"'
  | '\\' => some '\\'
  | _ => none

/-- The character with the code that the next `n` digits write. -/
def coded? (n : Nat) (cs : List Char) : Option (Char × List Char) := do
  if (cs.take n).length = n then
    let code ← Source.hexNumber? (cs.take n)
    if code.isValidChar then some (Char.ofNat code, cs.drop n) else none
  else none

/-- What a backslash and the characters after it stand for; in a text of several lines it may also
hide the end of the line and the white space behind. -/
def escaped? (long : Bool) (cs : List Char) : Option (List Char × List Char) :=
  match cs with
  | [] => none
  | 'u' :: rest => (coded? 4 rest).map fun (c, rest) => ([c], rest)
  | 'U' :: rest => (coded? 8 rest).map fun (c, rest) => ([c], rest)
  | c :: rest =>
    match escape? c with
    | some d => some ([d], rest)
    | none =>
      if long && isSpaceOrBreak c then
        match (if c = '\n' then '\n' :: rest else rest.dropWhile isSpace) with
        | [] => some ([], [])
        | '\n' :: more => some ([], more.dropWhile isSpaceOrBreak)
        | _ => none
      else none

/-- The rest of a text in double quotes, after the opening ones. -/
def basicFrom? (long : Bool) : Nat → List Char → Option (List Char × List Char)
  | 0, _ => none
  | fuel + 1, cs =>
    match cs with
    | [] => none
    | '"' :: rest =>
      if !long then some ([], rest)
      else match rest with
        | '"' :: '"' :: more => some ([], more)
        | _ => (basicFrom? long fuel rest).map fun (text, more) => ('"' :: text, more)
    | '\\' :: rest => do
      let (part, rest) ← escaped? long rest
      let (text, more) ← basicFrom? long fuel rest
      some (part ++ text, more)
    | c :: rest =>
      if isControl c && !(long && c = '\n') then none
      else (basicFrom? long fuel rest).map fun (text, more) => (c :: text, more)

/-- The rest of a text in single quotes, after the opening ones. -/
def literalFrom? (long : Bool) : List Char → Option (List Char × List Char)
  | [] => none
  | c :: rest =>
    if c = '\'' && !long then some ([], rest)
    else if c = '\'' && rest.take 2 = ['\'', '\''] then some ([], rest.drop 2)
    else if isControl c && !(long && c = '\n') then none
    else (literalFrom? long rest).map fun (text, more) => (c :: text, more)

/-- Up to two more quotes at the end of a text of several lines belong to it. -/
def withQuotes (quote : Char) (r : List Char × List Char) : List Char × List Char :=
  let extra := (r.2.take 2).takeWhile (· = quote)
  (r.1 ++ extra, r.2.drop extra.length)

/-- A text of several lines does not begin with the end of a line. -/
def dropBreak : List Char → List Char
  | '\n' :: rest => rest
  | cs => cs

/-- A text on one line. -/
def shortText? : List Char → Option (String × List Char)
  | '"' :: rest =>
    (basicFrom? false (rest.length + 1) rest).map fun (text, more) => (.ofList text, more)
  | '\'' :: rest => (literalFrom? false rest).map fun (text, more) => (.ofList text, more)
  | _ => none

/-- A text in quotes. -/
def text? : List Char → Option (String × List Char)
  | '"' :: '"' :: '"' :: rest =>
    (basicFrom? true (rest.length + 1) (dropBreak rest)).map fun r =>
      let (text, more) := withQuotes '"' r
      (.ofList text, more)
  | '\'' :: '\'' :: '\'' :: rest =>
    (literalFrom? true (dropBreak rest)).map fun r =>
      let (text, more) := withQuotes '\'' r
      (.ofList text, more)
  | cs => shortText? cs

/-! ## Numbers -/

/-- Digits, with single underscores between them. -/
def digitsFrom (digit : Char → Bool) : List Char → List Char × List Char
  | '_' :: c :: rest =>
    if digit c then
      let (ds, rest) := digitsFrom digit rest
      (c :: ds, rest)
    else ([], '_' :: c :: rest)
  | c :: rest =>
    if digit c then
      let (ds, rest) := digitsFrom digit rest
      (c :: ds, rest)
    else ([], c :: rest)
  | [] => ([], [])

/-- At least one digit, with single underscores between. -/
def digits? (digit : Char → Bool) (cs : List Char) : Option (List Char × List Char) :=
  if cs.head?.any digit then some (digitsFrom digit cs) else none

/-- A number in a base other than ten. -/
def based? : List Char → Option (Nat × List Char)
  | '0' :: mark :: rest =>
    let base := if mark = 'x' then 16 else if mark = 'o' then 8 else if mark = 'b' then 2 else 0
    if base = 0 then none
    else do
      let (ds, rest) ← digits? (fun c => (Decimal.digit? c).any (· < base)) rest
      some (← Decimal.natural? base ds, rest)
  | _ => none

/-- The whole part of a number: zero, or digits that do not begin with zero. -/
def whole? : List Char → Option (List Char × List Char)
  | '0' :: rest => some (['0'], rest)
  | cs => digits? Char.isDigit cs

/-- The fraction of a number, if there is one. -/
def fraction (cs : List Char) : List Char × List Char :=
  match cs with
  | '.' :: rest => (digits? Char.isDigit rest).getD ([], cs)
  | _ => ([], cs)

/-- The exponent of a number, if there is one. -/
def exponent (cs : List Char) : Option Int × List Char :=
  match cs with
  | e :: rest =>
    if e = 'e' || e = 'E' then
      let (negative, body) := match rest with
        | '-' :: more => (true, more)
        | '+' :: more => (false, more)
        | _ => (false, rest)
      match digits? Char.isDigit body with
      | some (ds, more) =>
        (some (if negative then -(Decimal.value ds : Int) else Decimal.value ds), more)
      | none => (none, cs)
    else (none, cs)
  | [] => (none, cs)

/-- A decimal number with an optional sign; the outer level says whether the text begins like
one. -/
def decimal? (cs : List Char) : Option (Except Fault (Setting × List Char)) := do
  let (negative, body) := match cs with
    | '-' :: rest => (true, rest)
    | '+' :: rest => (false, rest)
    | _ => (false, cs)
  let (whole, rest) ← whole? body
  let (part, rest) := fraction rest
  let (e, rest) := exponent rest
  if part.isEmpty && e.isNone then
    let n : Int := Decimal.value whole
    if Text.maxDigits < whole.length then some (.error .tooLong)
    else some (.ok (.int (if negative then -n else n), rest))
  else
    let x := Binary64.ofDecimal negative (Decimal.value (whole ++ part)) (e.getD 0 - part.length)
    some (.ok (.float x, rest))

/-- A number that is not finite. -/
def special? (cs : List Char) : Option (Setting × List Char) :=
  let (negative, body) := match cs with
    | '-' :: rest => (true, rest)
    | '+' :: rest => (false, rest)
    | _ => (false, cs)
  if body.take 3 = "inf".toList then some (.float (.infinite negative), body.drop 3)
  else if body.take 3 = "nan".toList then some (.float .nan, body.drop 3)
  else none

/-- A number. -/
def number? (cs : List Char) : Except Fault (Setting × List Char) :=
  match based? cs with
  | some (n, rest) => .ok (.int n, rest)
  | none =>
    match decimal? cs with
    | some r => r
    | none => orMalformed (special? cs)

/-! ## Dates -/

/-- A number of exactly `n` digits, followed by the character `next` if there is one. -/
def field? (n : Nat) (next : Option Char) (cs : List Char) : Option (Nat × List Char) :=
  let ds := cs.take n
  if ds.length = n && ds.all Char.isDigit then
    match next, cs.drop n with
    | none, rest => some (Decimal.value ds, rest)
    | some c, x :: rest => if x = c then some (Decimal.value ds, rest) else none
    | some _, [] => none
  else none

/-- The first six digits of a fraction of a second, in millionths. -/
def micros (cs : List Char) : Nat × List Char :=
  match cs with
  | '.' :: rest =>
    let ds := rest.takeWhile Char.isDigit
    if ds.isEmpty then (0, cs)
    else (Decimal.value ((ds ++ List.replicate 6 '0').take 6), rest.drop ds.length)
  | _ => (0, cs)

/-- A time of day: hour, minute, second and millionths. -/
def clock? (cs : List Char) : Option ((Nat × Nat × Nat × Nat) × List Char) := do
  let (h, cs) ← field? 2 (some ':') cs
  let (m, cs) ← field? 2 (some ':') cs
  let (s, cs) ← field? 2 none cs
  if Calendar.isTime h m s then
    let (u, cs) := micros cs
    some ((h, m, s, u), cs)
  else none

/-- The rest behind a time zone, if there is one. -/
def dropZone (cs : List Char) : List Char :=
  match cs with
  | 'Z' :: rest | 'z' :: rest => rest
  | sign :: rest =>
    if sign = '+' || sign = '-' then
      match field? 2 (some ':') rest with
      | some (h, more) => match field? 2 none more with
        | some (m, more) => if Calendar.isTime h m 0 then more else cs
        | none => cs
      | none => cs
    else cs
  | [] => cs

/-- A day of the calendar, which need not exist in its month. -/
def day? (cs : List Char) : Option ((Nat × Nat × Nat) × List Char) := do
  let (y, cs) ← field? 4 (some '-') cs
  let (m, cs) ← field? 2 (some '-') cs
  let (d, cs) ← field? 2 none cs
  if 1 ≤ m && m ≤ 12 && 1 ≤ d && d ≤ 31 then some ((y, m, d), cs) else none

/-- A time of day behind a date, if there is one. -/
def clockAfter? : List Char → Option ((Nat × Nat × Nat × Nat) × List Char)
  | c :: rest => if c = 'T' || c = 't' || c = ' ' then clock? rest else none
  | [] => none

/-- What a text that begins like a date stands for: nothing if the date does not exist. -/
def moment? (y m d : Nat) (cs : List Char) : Option (Setting × List Char) :=
  if Calendar.isDate y m d then
    match clockAfter? cs with
    | some ((h, min, s, u), rest) =>
      some (.moment "datetime" ([y, m, d] ++ Calendar.timeParts h min s u), dropZone rest)
    | none => some (.moment "date" [y, m, d], cs)
  else none

/-- A date, a time or both; the outer level says whether the text begins like one. -/
def date? (cs : List Char) : Option (Option (Setting × List Char)) :=
  match day? cs with
  | some ((y, m, d), rest) => some (moment? y m d rest)
  | none =>
    (clock? cs).map fun ((h, m, s, u), rest) =>
      some (.moment "time" (Calendar.timeParts h m s u), rest)

end Deadwood.Toml
