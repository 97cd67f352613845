import Deadwood.Text.Cut
import Deadwood.Text.Integer
import Deadwood.Text.Quoted

/-!
# Options of a command line

A command has options, which may take a value. An option may be shortened as long as no other option
begins in the same way, and its value may be given behind an equals sign.

* `Flag` describes an option.
* `Word.of` says what a word of a command line is.
* `readFlags` reads the options on a command line and gathers what is left over.
-/

namespace Deadwood.Command

/-- What an option takes. -/
inductive Takes where
  | nothing
  /-- A text, called so in descriptions. -/
  | text (called : String)
  /-- An integer, called so in descriptions. -/
  | number (called : String)
deriving Repr, DecidableEq, Inhabited

/-- An option of a command. -/
structure Flag where
  /-- Its names; the long one is the last. -/
  names : List String
  takes : Takes := .nothing
  /-- What it is for. -/
  about : String
deriving Repr, DecidableEq, Inhabited

/-- The option that asks for a description of the command. -/
def Flag.help : Flag := { names := ["-h", "--help"], about := "show this help message and exit" }

/-- All names of an option, as messages show them. -/
def Flag.shown (f : Flag) : String := "/".intercalate f.names

/-- What is wrong with a command line. -/
inductive Misuse where
  /-- A word that may be short for several options. -/
  | ambiguous (word : String) (names : List String)
  | noValue (f : Flag)
  /-- A value for an option that takes none. -/
  | strayValue (f : Flag) (value : String)
  | notANumber (f : Flag) (value : String)
  | unknownCommand (word : String) (commands : List String)
  | leftOver (words : List String)

/-- The mistake in words. -/
def Misuse.message : Misuse → String
  | .ambiguous word names =>
    "ambiguous option: " ++ word ++ " could match " ++ ", ".intercalate names
  | .noValue f => "argument " ++ f.shown ++ ": expected one argument"
  | .strayValue f value =>
    "argument " ++ f.shown ++ ": ignored explicit argument " ++ Text.quoted value
  | .notANumber f value => "argument " ++ f.shown ++ ": invalid int value: " ++ Text.quoted value
  | .unknownCommand word commands =>
    "argument cmd: invalid choice: " ++ Text.quoted word ++ " (choose from " ++
      ", ".intercalate (commands.map Text.quoted) ++ ")"
  | .leftOver words => "unrecognized arguments: " ++ " ".intercalate words

/-! ## Words -/

/-- What a word of a command line is. -/
inductive Word where
  /-- Not an option. -/
  | plain (s : String)
  /-- An option, by the name that was meant, with a value in the same word; `joined` says that the
  value follows a short name directly. -/
  | option (f : Flag) (name : String) (value : Option String) (joined : Bool)
  /-- It looks like an option, but there is none. -/
  | unknown (s : String)
  /-- Two dashes: no option follows. -/
  | dashes
deriving Repr, Inhabited

/-- The option with a name. -/
def named? (flags : List Flag) (name : String) : Option Flag := flags.find? (·.names.contains name)

/-- All names of options, with their options. -/
def allNames (flags : List Flag) : List (String × Flag) :=
  flags.flatMap fun f => f.names.map fun n => (n, f)

/-- The options that a word may be short for, and the values that it gives them. -/
def candidates (flags : List Flag) (word : String) : List (String × Flag × Option String) :=
  if Text.startsWith word "--" then
    let (start, value) := match Text.cutFirst '=' word with
      | some (start, value) => (start, some value)
      | none => (word, none)
    ((allNames flags).filter fun n => Text.startsWith n.1 start).map fun n => (n.1, n.2, value)
  else
    (allNames flags).filterMap fun n =>
      if n.1 = Text.take word 2 then some (n.1, n.2, some (Text.drop word 2))
      else if Text.startsWith n.1 word then some (n.1, n.2, none)
      else none

/-- Whether a word is a negative number. -/
def isNegativeNumber (word : String) : Bool :=
  match word.toList with
  | '-' :: rest =>
    let (whole, tail) := rest.span Text.isDecimal
    match tail with
    | [] => !whole.isEmpty
    | '.' :: fraction => !fraction.isEmpty && fraction.all Text.isDecimal
    | _ => false
  | _ => false

/-- What a word in front of two dashes is. -/
def Word.of (flags : List Flag) (word : String) : Except Misuse Word :=
  if word = "" || word = "-" || !Text.startsWith word "-" then .ok (.plain word)
  else if word = "--" then .ok .dashes
  else match named? flags word with
    | some f => .ok (.option f word none false)
    | none =>
      match (Text.cutFirst '=' word).bind fun (name, value) =>
        (named? flags name).map (name, ·, value) with
      | some (name, f, value) => .ok (.option f name (some value) false)
      | none =>
        match candidates flags word with
        | [(name, f, value)] => .ok (.option f name value (!Text.startsWith word "--"))
        | [] =>
          .ok (if isNegativeNumber word || word.toList.contains ' ' then .plain word
            else .unknown word)
        | several => .error (.ambiguous word (several.map (·.1)))

/-- What the words of a command line are; behind two dashes there are no options. -/
def wordsOf (flags : List Flag) : List String → Except Misuse (List Word)
  | [] => .ok []
  | word :: rest => do
    match ← Word.of flags word with
    | .dashes => return .dashes :: rest.map .plain
    | w => return w :: (← wordsOf flags rest)

/-- A word as it was written, if it is no option. -/
def Word.text : Word → String
  | .plain s | .unknown s => s
  | .dashes => "--"
  | .option _ name _ _ => name

/-! ## Reading options -/

/-- What the options on a command line say. -/
structure Reading where
  /-- The options in order, with their values. -/
  given : List (Flag × Option String) := []
  /-- The words that belong to no option. -/
  left : List String := []
  /-- Whether a description of the command is asked for. -/
  help : Bool := false

/-- The value of an option, checked. -/
def checkValue (f : Flag) (value : String) : Except Misuse (Flag × Option String) :=
  match f.takes with
  | .number _ =>
    if (Text.readInt? value).isSome then .ok (f, some value) else .error (.notANumber f value)
  | _ => .ok (f, some value)

/-- The value among the letters that follow a short name directly: its letter may be repeated, and
any other letter is an option of its own. -/
def valueBehind (name : String) : List Char → Option String
  | [] => none
  | '-' :: rest => some (.ofList ('-' :: rest))
  | c :: '=' :: rest => if name.toList.contains c then some (.ofList rest) else none
  | c :: rest => if name.toList.contains c then valueBehind name rest else none

/-- Reads the options among the words; asking for help ends the reading. -/
def readFlags : List Word → Except Misuse Reading
  | [] => .ok {}
  | .option f name (some value) joined :: rest =>
    if f.takes = .nothing then
      match if joined then valueBehind name value.toList else some value with
      | some stray => .error (.strayValue f stray)
      | none => .ok { help := true }
    else do
      let g ← checkValue f value
      more g (← readFlags rest)
  | .option f _ none _ :: rest =>
    if f = .help then .ok { help := true }
    else match f.takes, rest with
      | .nothing, rest => do more (f, none) (← readFlags rest)
      | _, .plain value :: rest => do
        let g ← checkValue f value
        more g (← readFlags rest)
      | _, _ => .error (.noValue f)
  | w :: rest => do
    let r ← readFlags rest
    return { r with left := w.text :: r.left }
where
  /-- Puts an option in front. -/
  more (g : Flag × Option String) (r : Reading) : Except Misuse Reading :=
    .ok { r with given := g :: r.given }

namespace Reading

/-- Whether an option is given. -/
def has (r : Reading) (name : String) : Bool := r.given.any (·.1.names.contains name)

/-- The values of an option, in order. -/
def values (r : Reading) (name : String) : List String :=
  (r.given.filter (·.1.names.contains name)).filterMap (·.2)

/-- The value of an option, the last one if it is repeated. -/
def value? (r : Reading) (name : String) : Option String := (r.values name).getLast?

end Reading

end Deadwood.Command
