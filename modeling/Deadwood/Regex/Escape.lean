import Deadwood.Regex.Token
import Deadwood.Text.Digit
import Deadwood.Text.Word

/-!
# Escapes and sets

* `escape` reads what a backslash begins: a character, a class of characters, a condition on the
  position or a reference to a group.
* `readSet` reads the members of a set of characters.
-/

namespace Deadwood.Regex

/-! ## Escapes -/

/-- Whether `c` is an ASCII digit. -/
def isAsciiDigit (c : Char) : Bool := '0' ≤ c && c ≤ '9'

/-- Whether `c` is an octal digit. -/
def isOctal (c : Char) : Bool := '0' ≤ c && c ≤ '7'

/-- Whether `c` is a hexadecimal digit. -/
def isHex (c : Char) : Bool := isAsciiDigit c || ('a' ≤ c && c ≤ 'f') || ('A' ≤ c && c ≤ 'F')

/-- The value of a hexadecimal digit. -/
def hexValue (c : Char) : Nat :=
  if isAsciiDigit c then c.toNat - 48
  else if 'a' ≤ c then c.toNat - 87
  else c.toNat - 55

/-- The number that digits write in a base. -/
def inBase (base : Nat) (cs : List Char) : Nat := cs.foldl (fun n c => base * n + hexValue c) 0

/-- The class that a letter after a backslash stands for, and whether it is negated. -/
def categoryOf? : Char → Option (Category × Bool)
  | 'd' => some (.digit, false)
  | 'D' => some (.digit, true)
  | 's' => some (.space, false)
  | 'S' => some (.space, true)
  | 'w' => some (.word, false)
  | 'W' => some (.word, true)
  | _ => none

/-- The condition that a letter after a backslash stands for. -/
def anchorOf? : Char → Option Anchor
  | 'A' => some .textStart
  | 'b' => some .boundary
  | 'B' => some .notBoundary
  | 'Z' => some .textEnd
  | _ => none

/-- The control character that a letter after a backslash stands for. -/
def controlOf? : Char → Option Nat
  | 'a' => some 7
  | 'b' => some 8
  | 'f' => some 12
  | 'n' => some 10
  | 'r' => some 13
  | 't' => some 9
  | 'v' => some 11
  | '\\' => some 92
  | _ => none

/-- A character given by exactly `n` hexadecimal digits after `\` and `letter`. -/
def hexEscape (letter : Char) (n : Nat) : Read Nat := do
  let ds ← takeWhile isHex n
  let written := "\\" ++ String.singleton letter ++ .ofList ds
  if ds.length ≠ n then failAt (.incompleteEscape written) written.length
  else
    let code := inBase 16 ds
    if 0x10FFFF < code then failAt (.badEscape written) written.length else pure code

/-- A character given by its name. -/
def namedEscape : Read Nat := do
  if ← accept '\x7b' then
    let name ← takeName '\x7d' "character name"
    failAt (.unknownCharacter name) (name.length + 4)
  else failHere .missingBrace

/-- The character of an escape that means the same inside and outside of sets. -/
def commonEscape? (c : Char) : Option (Read Nat) :=
  if c = 'x' then some (hexEscape c 2)
  else if c = 'u' then some (hexEscape c 4)
  else if c = 'U' then some (hexEscape c 8)
  else if c = 'N' then some namedEscape
  else none

/-- Whether `c` is an ASCII letter. -/
def isAsciiLetter (c : Char) : Bool := ('a' ≤ c && c ≤ 'z') || ('A' ≤ c && c ≤ 'Z')

/-- A character that stands for itself after a backslash. -/
def plainEscape (c : Char) : Read Nat :=
  if isAsciiLetter c then failAt (.badEscape ("\\" ++ String.singleton c)) 2 else pure c.toNat

/-- Octal digits after a backslash. -/
def octal (written : List Char) : Read Nat :=
  let code := inBase 8 written
  if 0o377 < code then
    failAt (.octalTooLarge (.ofList ('\\' :: written))) (written.length + 1)
  else pure code

/-- An escape inside a set. -/
def setEscape (c : Char) : Read SetItem :=
  match controlOf? c, categoryOf? c, commonEscape? c with
  | some n, _, _ => pure (.code n)
  | none, some (k, negated), _ => pure (.category k negated)
  | none, none, some read => .code <$> read
  | none, none, none => do
    if isOctal c then
      let more ← takeWhile isOctal 2
      .code <$> octal (c :: more)
    else if isAsciiDigit c then failAt (.badEscape ("\\" ++ String.singleton c)) 2
    else .code <$> plainEscape c

/-- A reference to a group by its digits. -/
def groupReference (flags : Flags) (digits : List Char) : Read Regex := do
  let n := inBase 10 digits
  if n < (← get).groups then
    if !(← isClosed n) then failAt .openGroupReference (digits.length + 1)
    else
      checkBehind n
      pure (.backref flags n)
  else failAt (.invalidReference n) digits.length

/-- One character as an expression. -/
def single (flags : Flags) (n : Nat) : Regex := .oneOf flags false [.code n]

/-- An escape outside of sets. -/
def escape (flags : Flags) (c : Char) : Read Regex :=
  match anchorOf? c, categoryOf? c, controlOf? c, commonEscape? c with
  | some a, _, _, _ => pure (.anchor flags a)
  | none, some (k, negated), _, _ => pure (.oneOf flags false [.category k negated])
  | none, none, some n, _ => pure (single flags n)
  | none, none, none, some read => single flags <$> read
  | none, none, none, none => do
    if c = '0' then
      let more ← takeWhile isOctal 2
      single flags <$> pure (inBase 8 more)
    else if isAsciiDigit c then
      match ← takeWhile isAsciiDigit 1 with
      | [] => groupReference flags [c]
      | d :: _ =>
        let third ← if isOctal c && isOctal d then takeWhile isOctal 1 else pure []
        match third with
        | [] => groupReference flags [c, d]
        | e :: _ => single flags <$> octal [c, d, e]
    else single flags <$> plainEscape c

/-! ## Sets -/

/-- One member of a set: a character or a class, with the text it was written by. -/
def setMember (t : Token) : Read SetItem :=
  match t with
  | .escaped c => setEscape c
  | .plain c => pure (.code c.toNat)
  | .dangling => pure (.code '\\'.toNat)

/-- The members of a set up to its closing bracket; the set was opened at `start`. -/
def readSet (start : Nat) : Nat → List SetItem → Read (List SetItem)
  | 0, done => pure done
  | fuel + 1, done => do
    match ← take with
    | none => failAt .unterminatedSet ((← position) - start)
    | some t =>
      if t = .plain ']' && !done.isEmpty then pure done
      else
        let item ← setMember t
        if ← accept '-' then
          match ← take with
          | none => failAt .unterminatedSet ((← position) - start)
          | some t' =>
            if t' = .plain ']' then pure (done ++ [item, .code '-'.toNat])
            else
              let item' ← setMember t'
              match item, item' with
              | .code lo, .code hi =>
                if hi < lo then failAt (.badRange t.text t'.text) (t.size + 1 + t'.size)
                else readSet start fuel (done ++ [.range lo hi])
              | _, _ => failAt (.badRange t.text t'.text) (t.size + 1 + t'.size)
        else readSet start fuel (done ++ [item])

end Deadwood.Regex
