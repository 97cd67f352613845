import Deadwood.Library.Failure
import Deadwood.Setting
import Deadwood.Text.Cut
import Deadwood.Text.Integer

/-!
# Compiling ignore specifications

`Ignore.compile` turns a setting into a specification. Accepted are

* a text or pattern: the scope;
* a list or tuple of scope and name, or of scope, name and arity;
* an object with any of the fields `scope`, `name` and `arity`;
* a symbol, a predicate, or a specification that is compiled already.

A missing value, `_` and `*` stand for anything. A text is a pattern if it begins with `re:` or
stands between slashes; how patterns are read is given. An arity is a number or two numbers joined
by `..`. The name of the constructors with arity 0 stands for both constructors of a class.
-/

namespace Deadwood.Ignore

/-- What is wrong with an ignore specification. -/
inductive Fault where
  | badPattern (problem : String)
  | notText (field : String)
  | emptyText (field : String)
  | badArity
  | negativeArity
  | badRange
  | reversedRange
  | unknownKeys (keys : List Setting)
  | badLength
  | hiddenParameters
  | badParameters
  | unsupported

/-- The wording of a fault. -/
def Fault.text : Fault → String
  | .badPattern problem => "invalid regular expression (" ++ problem ++ ")"
  | .notText field => field ++ " must be a string, regex or wildcard"
  | .emptyText field => "empty " ++ field
  | .badArity => "arity must be an integer, range or wildcard"
  | .negativeArity => "arity must not be negative"
  | .badRange => "invalid arity range"
  | .reversedRange => "invalid arity range (lower > upper)"
  | .unknownKeys keys => "unknown keys " ++ (Setting.list keys).display
  | .badLength => "ignore entry must have 2 or 3 elements"
  | .hiddenParameters => "cannot inspect predicate signature"
  | .badParameters => "predicate must accept (symbol) or (symbol, meta)"
  | .unsupported => "unsupported ignore specification"

/-- Why a setting could not be compiled. -/
inductive Error where
  /-- The setting `given` is not a specification. -/
  | invalid (fault : Fault) (given : Setting)
  /-- A setting is not a specification, and the message cannot show it. -/
  | notShown
  /-- A text of digits does not write a number. -/
  | notANumber
  /-- A range has more numbers than can be counted. -/
  | rangeTooLong
  /-- Unknown field names have no common order. -/
  | unorderedKeys
  /-- The reader of patterns breaks down. -/
  | patternBroken (what : String)

/-- What a message shows behind its wording: the setting it is about, if there is one. -/
def shownBehind (given : Setting) : String :=
  match given with
  | .null => ""
  | given => ": " ++ given.display

/-- The message for an invalid specification. -/
def Error.message : Error → String
  | .invalid fault given => fault.text ++ shownBehind given
  | .notShown => "a number with too many digits cannot be shown"
  | .notANumber => "a number is expected"
  | .rangeTooLong => "a range is too long"
  | .unorderedKeys => "unknown keys"
  | .patternBroken what => what

/-- The setting `given` is refused; the message has to show it. -/
def refuse (fault : Fault) (given : Setting) : Error :=
  if given.isShown then .invalid fault given else .notShown

/-- Whether a text stands for anything. -/
def isWildcard (s : String) : Bool := s = "_" || s = "*"

/-- The pattern that a text writes, if it writes one. -/
def patternText? (s : String) : Option String :=
  if Text.startsWith s "re:" then some (Text.drop s 3)
  else if 2 ≤ s.length && Text.startsWith s "/" && Text.endsWith s "/" then
    some (Text.dropEnd (Text.drop s 1) 1)
  else none

variable (pattern : String → Library.Answer String Pattern)

/-- Compiles a condition on the field `what` of the setting `given`. -/
def compileText (value given : Setting) (what : String) : Except Error TextField :=
  match value with
  | .null => .ok .any
  | .pattern p => .ok (.pattern p)
  | .str s =>
    let s := Text.trim s
    if isWildcard s then .ok .any
    else
      match patternText? s with
      | some source =>
        match pattern source with
        | .ok p => .ok (.pattern p)
        | .error (.broken problem) => .error (.patternBroken problem)
        | .error (.refused problem) => .error (refuse (.badPattern problem) given)
      | none => if s.isEmpty then .error (refuse (.emptyText what) given) else .ok (.exact s)
  | _ => .error (refuse (.notText what) given)

/-- The digits of the two ends of a written range. -/
def rangeEnds? (s : String) : Option (List Char × List Char) :=
  let (lo, rest) := (s.toList.dropWhile Text.isBlank).span Text.isDecimal
  match rest.dropWhile Text.isBlank with
  | '.' :: '.' :: rest =>
    let (hi, rest) := (rest.dropWhile Text.isBlank).span Text.isDecimal
    if lo.isEmpty || hi.isEmpty || !(rest.dropWhile Text.isBlank).isEmpty then none
    else some (lo, hi)
  | _ => none

/-- The number of integers from `start` to `stop` in steps of one. -/
def spanLength (start stop : Int) : Nat := (stop - start).toNat

/-- The largest number of integers in a range. -/
def maxSpan : Nat := 9223372036854775807

/-- Compiles a condition on the arity. -/
def compileArity (value given : Setting) : Except Error ArityField :=
  match value with
  | .null => .ok .any
  | .int n => if n < 0 then .error (refuse .negativeArity given) else .ok (.exact n)
  | .range start stop step =>
    if step ≠ 1 then .error (refuse .badRange given)
    else if maxSpan < spanLength start stop then .error .rangeTooLong
    else if spanLength start stop = 0 || start < 0 then .error (refuse .badRange given)
    else .ok (.between start (stop - 1))
  | .str s =>
    let s := Text.trim s
    if isWildcard s then .ok .any
    else if !s.isEmpty && s.toList.all Text.isDigit then
      match Text.readDigits? s.toList with
      | some n => .ok (.exact n)
      | none => .error .notANumber
    else
      match rangeEnds? s with
      | some (lo, hi) =>
        match Text.readDigits? lo, Text.readDigits? hi with
        | some lo, some hi =>
          if hi < lo then .error (refuse .reversedRange given) else .ok (.between lo hi)
        | _, _ => .error .notANumber
      | none => .error (refuse .badArity given)
  | _ => .error (refuse .badArity given)

/-- The specification with the three conditions. -/
def Spec.ofFields (onScope onName : TextField) (onArity : ArityField) : Spec :=
  if onName = .exact Symbol.recordName ∧ onArity = .exact 0 then .record onScope
  else if onName = .any ∧ onArity = .any then .scope onScope
  else .symbol onScope onName onArity

/-- Compiles scope, name and arity of the setting `given`. -/
def compileFields (scope name arity given : Setting) : Except Error Spec := do
  let scope ← compileText pattern scope given "scope"
  let name ← compileText pattern name given "name"
  let arity ← compileArity arity given
  pure (.ofFields scope name arity)

/-- The number of arguments with which a predicate is asked. -/
def Predicate.arguments (p : Predicate) : Except Error Nat :=
  match p.parameters with
  | none => .error (refuse .hiddenParameters (.predicate p))
  | some parameters =>
    let required := parameters.count true
    if required = 1 || required = 2 then .ok required
    else if required = 0 && !parameters.isEmpty then .ok (min parameters.length 2)
    else .error (refuse .badParameters (.predicate p))

/-- Whether a field name is one that an entry may have. -/
def isKnownKey : Setting → Bool
  | .str k => k = "scope" || k = "name" || k = "arity"
  | _ => false

/-- Unknown keys in order; two keys of different kinds have none. -/
def sortKeys (keys : List Setting) : Except Error (List Setting) :=
  if keys.Pairwise fun a b => (a.before? b).isSome then
    .ok (keys.mergeSort fun a b => b.before? a != some true)
  else .error .unorderedKeys

/-- Compiles one specification. -/
def compile (given : Setting) : Except Error Spec :=
  match given with
  | .spec s => .ok s
  | .str _ | .pattern _ => (compileText pattern given given "scope").map .scope
  | .symbol scope name arity => compileFields pattern scope name arity given
  | .dict fields =>
    let unknown := (fields.map (·.1)).filter fun k => !isKnownKey k
    if unknown.isEmpty then
      let get (name : String) := (Setting.field? fields name).getD .null
      compileFields pattern (get "scope") (get "name") (get "arity") given
    else do
      let keys ← sortKeys unknown
      .error (refuse (.unknownKeys keys) given)
  | .list items | .tuple items =>
    match items with
    | [scope, name] => compileFields pattern scope name .null given
    | [scope, name, arity] => compileFields pattern scope name arity given
    | _ => .error (refuse .badLength given)
  | .predicate p => p.arguments.map (.predicate p)
  | _ => .error (refuse .unsupported given)

/-- Compiles specifications in order, up to the first that is invalid. -/
def compileAll : List Setting → Except Error (List Spec)
  | [] => .ok []
  | given :: rest => do
    let spec ← compile pattern given
    let specs ← compileAll rest
    pure (spec :: specs)

end Deadwood.Ignore
