import Deadwood.Config
import Deadwood.Text.Blank
import Deadwood.Text.Integer

/-!
# Reading configurations

A configuration is given as an object whose fields are options. Every option has a kind of value;
values that clearly stand for one of that kind are converted, such as the text of a number. All
values that do not fit are reported together: those of the options in their order, then the fields
that are no options.

* `textOf`, `textsOf`, `flagOf`, `countOf` read values of one kind.
* `Options.ofFields` reads all options of an object.
* `Config.ofSetting` is the configuration that an object gives, given how its options are checked.
-/

namespace Deadwood.Config

/-! ## Values of one kind -/

/-- What reading a value gives: the value, or the problems with it. -/
abbrev Reading (α : Type) := Except (List Problem) α

/-- A value that does not fit. -/
def refuse {α : Type} (text : String) : Reading α := .error [⟨[], text⟩]

/-- A text. -/
def textOf : Setting → Reading String
  | .str s => .ok s
  | _ => refuse "Input should be a valid string"

/-- The texts of a list, which starts at position `i`. -/
def textsFrom (i : Nat) : List Setting → Reading (List String)
  | [] => .ok []
  | v :: rest =>
    match textOf v, textsFrom (i + 1) rest with
    | .ok s, .ok more => .ok (s :: more)
    | .ok _, .error ps => .error ps
    | .error ps, .ok _ => .error (ps.map fun p => { p with place := toString i :: p.place })
    | .error ps, .error more =>
      .error (ps.map (fun p => { p with place := toString i :: p.place }) ++ more)

/-- A list of anything. -/
def itemsOf : Setting → Reading (List Setting)
  | .list items | .tuple items => .ok items
  | _ => refuse "Input should be a valid list"

/-- A list of texts. -/
def textsOf (v : Setting) : Reading (List String) := do textsFrom 0 (← itemsOf v)

/-- The texts that stand for no. -/
def noTexts : List String := ["0", "off", "f", "false", "n", "no"]

/-- The texts that stand for yes. -/
def yesTexts : List String := ["1", "on", "t", "true", "y", "yes"]

/-- A truth value, which may be given as zero or one or as a text. -/
def flagOf : Setting → Reading Bool
  | .bool b => .ok b
  | .int 0 => .ok false
  | .int 1 => .ok true
  | .int _ => refuse "Input should be a valid boolean, unable to interpret input"
  | .float x =>
    if x.compareInt? 0 = some .eq then .ok false
    else if x.compareInt? 1 = some .eq then .ok true
    else refuse "Input should be a valid boolean"
  | .str s =>
    let word := String.ofList (s.toList.map Char.toLower)
    if noTexts.contains word then .ok false
    else if yesTexts.contains word then .ok true
    else refuse "Input should be a valid boolean, unable to interpret input"
  | _ => refuse "Input should be a valid boolean"

/-! ## Integers -/

/-- The integer that decimal digits write, without zeros at the front, after an optional minus. -/
def plainInteger? : List Char → Option Int
  | '-' :: cs => (plainNatural? cs).map fun n => -(n : Int)
  | cs => (plainNatural? cs).map Int.ofNat
where
  /-- The number that decimal digits write, without zeros at the front. -/
  plainNatural? (cs : List Char) : Option Nat :=
    if cs.all Char.isDigit && (cs = ['0'] || cs.head?.any (· ≠ '0')) then
      some (Text.ofDigits (cs.map fun c => c.toNat - 48))
    else none

/-- What follows the zeros at the front of a number; `last` is the character before `cs`, which
stands for the number if nothing else does. -/
def afterZeros (last : Char) : List Char → Option (List Char)
  | [] => some [last]
  | c :: rest =>
    if c = '0' || c = '_' then afterZeros c rest
    else if c = '.' then some (last :: c :: rest)
    else if c.isDigit then some (c :: rest)
    else none

/-- A number without the zeros at its front. -/
def dropZeros : List Char → Option (List Char)
  | [] => none
  | c :: rest =>
    if c = '0' then afterZeros c rest
    else if c.isDigit || c = '-' then some (c :: rest)
    else none

/-- A number without a point that only zeros follow. -/
def dropEmptyFraction (cs : List Char) : List Char :=
  let (whole, rest) := cs.span (· ≠ '.')
  if (rest.drop 1).all (· = '0') then whole else cs

/-- Whether every underscore stands between two other characters. -/
def hasSingleUnderscores : List Char → Bool
  | [] => true
  | ['_'] => false
  | '_' :: '_' :: _ => false
  | _ :: rest => hasSingleUnderscores rest

/-- A number without the underscores between its digits. -/
def dropUnderscores (cs : List Char) : Option (List Char) :=
  if cs.head? ≠ some '_' && hasSingleUnderscores cs then some (cs.filter (· ≠ '_')) else none

/-- White space around a number: all blanks but the separators of records. -/
def isMargin (c : Char) : Bool := Text.isBlank c && !(28 ≤ c.toNat && c.toNat ≤ 31)

/-- The integer that a text writes: white space may surround it, a sign and zeros may stand in
front, single underscores between digits, and a point with zeros at the end. -/
def integer? (s : String) : Option Int :=
  (plainInteger? s.toList) <|> do
    let cs := ((s.toList.dropWhile isMargin).reverse.dropWhile isMargin).reverse
    let cs ← match cs with
      | '+' :: '-' :: _ => none
      | '+' :: rest => some rest
      | _ => some cs
    plainInteger? (← dropUnderscores (dropEmptyFraction (← dropZeros cs)))

/-- An integer, which may be given as a truth value, a number without a fraction or a text. -/
def integerOf : Setting → Reading Int
  | .int n => .ok n
  | .bool b => .ok (if b then 1 else 0)
  | .float x =>
    match x.integer? with
    | some n =>
      if n.natAbs < Nat.pow 2 63 then .ok n
      else refuse "Unable to parse input string as an integer, exceeded maximum size"
    | none =>
      if x.ratio?.isSome then
        refuse "Input should be a valid integer, got a number with a fractional part"
      else refuse "Input should be a finite number"
  | .str s =>
    match integer? s with
    | some n => .ok n
    | none => refuse "Input should be a valid integer, unable to parse string as an integer"
  | _ => refuse "Input should be a valid integer"

/-- A positive integer. -/
def countOf (v : Setting) : Reading Int := do
  let n ← integerOf v
  if 1 ≤ n then pure n else refuse "Input should be greater than or equal to 1"

/-! ## Options -/

/-- The names of the options that a configuration has. -/
def optionNames : List String :=
  ["paths", "include", "exclude", "checks", "ignore", "severity", "warnings_as_errors", "manifest",
    "output", "html_report", "html_output", "graph", "format", "workers",
      "narrow_skip_likely_roots",
    "documented_is_root"]

/-- The first of some names that is no option, as an error. -/
def unknownOption? (names : List String) : Option Error :=
  (names.find? (!optionNames.contains ·)).map .unknownOption

/-- Reads a field if it is there, and notes the problems with it. -/
def present {α : Type} (fields : List (Setting × Setting)) (name : String)
    (read : Setting → Reading α) : StateM (List Problem) (Option α) := do
  match Setting.field? fields name with
  | none => pure none
  | some v =>
    match read v with
    | .ok a => pure (some a)
    | .error ps =>
      modify (· ++ ps.map fun p => { p with place := name :: p.place })
      pure none

/-- Reads a value unless it is null. -/
def unlessNull {α : Type} (read : Setting → Reading α) : Setting → Reading (Option α)
  | .null => .ok none
  | v => some <$> read v

/-- Reads a field if it is there and not null. -/
def optional {α : Type} (fields : List (Setting × Setting)) (name : String)
    (read : Setting → Reading α) : StateM (List Problem) (Option α) :=
  Option.join <$> present fields name (unlessNull read)

/-- The name of a field in a message; a number with too many digits is not shown. -/
def fieldText : Setting → String
  | .str s => s
  | .bool b => if b then "1" else "0"
  | v => if v.isShown then v.display else "<unprintable int object>"

/-- The problem with a field that is no option. -/
def strangeField? : Setting → Option Problem
  | .str s =>
    if s = "version" || optionNames.contains s then none
    else some ⟨[s], "Extra inputs are not permitted"⟩
  | k => some ⟨[fieldText k], "Keys should be strings"⟩

end Config

open Config in
/-- Reads the options of an object and notes the problems with them. -/
def Overrides.read (fields : List (Setting × Setting)) : StateM (List Problem) Overrides := do
  let _ ← optional fields "version" textOf
  let o : Overrides := {
    paths := ← optional fields "paths" textsOf
    wanted := ← optional fields "include" textsOf
    unwanted := ← optional fields "exclude" textsOf
    checks := ← optional fields "checks" textsOf
    ignore := ← present fields "ignore" itemsOf
    severity := (← optional fields "severity" textOf).map Setting.str
    warningsAsErrors := ← optional fields "warnings_as_errors" flagOf
    manifest := ← optional fields "manifest" textOf
    output := ← optional fields "output" textOf
    htmlReport := ← optional fields "html_report" flagOf
    htmlOutput := ← optional fields "html_output" textOf
    graph := ← optional fields "graph" flagOf
    format := ← optional fields "format" textOf
    workers := ← optional fields "workers" countOf
    exemptLikelyRoots := ← optional fields "narrow_skip_likely_roots" flagOf
    documentedIsRoot := ← optional fields "documented_is_root" flagOf }
  modify (· ++ fields.filterMap fun f => strangeField? f.1)
  pure o

/-- A severity that an object gives is a text. -/
theorem Overrides.exists_severity (fields : List (Setting × Setting)) :
    ∃ s : Option String, ((Overrides.read fields).run []).1.severity = s.map Setting.str := by
  unfold Overrides.read
  exact ⟨_, rfl⟩

/-- The options of an object, or all problems with it. -/
def Options.ofFields (fields : List (Setting × Setting)) : Except (List Config.Problem) Options :=
  let problems := ((Overrides.read fields).run []).2
  if problems.isEmpty
    then .ok ⟨((Overrides.read fields).run []).1, Overrides.exists_severity fields⟩
  else .error problems

namespace Config

/-- The fields of what is given as a configuration; null has none. -/
def fieldsOf : Setting → Except Error (List (Setting × Setting))
  | .null => .ok []
  | .dict fields => .ok fields
  | v => .error (.notAnObject v)

/-- The configuration that an object gives; `options` checks its fields. -/
def ofSetting (options : List (Setting × Setting) → Library.Answer (List Problem) Options)
    (hasSources : Bool) (given : Setting) : Except LoadError Config := do
  let fields ← LoadError.lift (fieldsOf given)
  let o ← LoadError.answer .problems (options fields)
  LoadError.lift ((initial hasSources).override o.given)

end Config

end Deadwood
