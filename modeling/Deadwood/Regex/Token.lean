import Deadwood.Regex.Error
import Deadwood.Text.Identifier

/-!
# The tokens of a pattern

A pattern is read token by token: a character, or a backslash with the character that it escapes.

* `Token.scan` cuts a pattern into tokens.
* `ReadState` is how far a pattern has been read, `Read` a step of reading.
* `peek`, `take`, `accept`, `takeWhile`, `takeName` read tokens; `failAt` and `failHere` stop.
-/

namespace Deadwood.Regex

/-- A token of a pattern: a character, or a backslash with what it escapes. -/
inductive Token where
  | plain (c : Char)
  | escaped (c : Char)
  | dangling
deriving Repr, DecidableEq

namespace Token

/-- The token as it stands in the pattern. -/
def text : Token → String
  | .plain c => String.singleton c
  | .escaped c => "\\" ++ String.singleton c
  | .dangling => "\\"

/-- The number of characters of the token. -/
def size : Token → Nat
  | .escaped _ => 2
  | _ => 1

/-- The tokens of a pattern. -/
def scan : List Char → List Token
  | [] => []
  | ['\\'] => [.dangling]
  | '\\' :: c :: rest => .escaped c :: scan rest
  | c :: rest => .plain c :: scan rest

end Token

/-- How far a pattern has been read, and what is known about its groups. -/
structure ReadState where
  /-- The tokens still to read. -/
  tokens : List Token
  /-- The number of characters already read. -/
  position : Nat := 0
  /-- The number of the next group. -/
  groups : Nat := 1
  names : List (String × Nat) := []
  /-- The widths of the groups that have been closed. -/
  closed : List (Nat × Width) := []
  /-- Numbered conditions, each with the place of its number. -/
  conditions : List (Nat × Nat) := []
  /-- Inside a look-behind: the number of the first group opened there. -/
  behind : Option Nat := none
  /-- The settings for the whole pattern. -/
  flags : Flags := {}
  /-- The letters of those settings. -/
  letters : List Char := []

/-- A step of reading. -/
abbrev Read := StateT ReadState (Except Error)

/-- Stops `offset` characters before the current position. -/
def failAt {α : Type} (fault : Fault) (offset : Nat) : Read α := fun s =>
  .error (.malformed fault (some (s.position - offset)))

/-- Stops at the current position. -/
def failHere {α : Type} (fault : Fault) : Read α := failAt fault 0

/-- The next token. -/
def peek : Read (Option Token) := fun s => .ok (s.tokens.head?, s)

/-- The current position. -/
def position : Read Nat := fun s => .ok (s.position, s)

/-- Fails if the next token is a backslash at the end of the pattern. -/
def checkDangling : Read Unit := fun s =>
  match s.tokens with
  | [.dangling] => .error (.malformed .danglingEscape (some s.position))
  | _ => .ok ((), s)

/-- Takes the next token. -/
def take : Read (Option Token) := fun s =>
  match s.tokens with
  | [] => .ok (none, s)
  | t :: rest => (checkDangling { s with tokens := rest, position := s.position + t.size }).map
      fun (_, s) => (some t, s)

/-- Takes the next token if it is the character `c`. -/
def accept (c : Char) : Read Bool := do
  if (← peek) = some (.plain c) then
    let _ ← take
    pure true
  else pure false

/-- Takes up to `n` characters of a class. -/
def takeWhile (p : Char → Bool) : Nat → Read (List Char)
  | 0 => pure []
  | n + 1 => do
    match ← peek with
    | some (.plain c) =>
      if p c then
        let _ ← take
        let rest ← takeWhile p n
        pure (c :: rest)
      else pure []
    | _ => pure []

/-- Takes tokens up to a terminator; `what` names what they spell. -/
def takeUntil (terminator : Char) (what : String) : Nat → String → Read String
  | 0, done => pure done
  | fuel + 1, done => do
    match ← take with
    | none =>
      if done.isEmpty then failHere (.missingName what)
      else failAt (.unterminatedName (String.singleton terminator)) done.length
    | some (.plain c) =>
      if c = terminator then
        if done.isEmpty then failAt (.missingName what) 1 else pure done
      else takeUntil terminator what fuel (done.push c)
    | some t => takeUntil terminator what fuel (done ++ t.text)

/-- A name up to a terminator. -/
def takeName (terminator : Char) (what : String) : Read String := fun s =>
  takeUntil terminator what (s.tokens.length + 1) "" s

/-- Whether a text is an identifier. -/
def isIdentifier (s : String) : Bool :=
  match s.toList with
  | [] => false
  | c :: rest => Text.isIdentifierStart c && rest.all Text.isIdentifierContinue

/-- Fails unless `name`, which ends `offset` characters back, is an identifier. -/
def checkGroupName (name : String) (offset : Nat) : Read Unit :=
  if isIdentifier name then pure () else failAt (.badGroupName name) (name.length + offset)

/-- Whether group `n` has been closed. -/
def isClosed (n : Nat) : Read Bool := fun s => .ok (s.closed.any (·.1 = n), s)

/-- Fails if a look-behind refers to a group that is open or opened inside it. -/
def checkBehind (n : Nat) : Read Unit := do
  match (← get).behind with
  | none => pure ()
  | some first =>
    if !(← isClosed n) then failHere .openGroupReference
    else if first ≤ n then failHere .lookBehindReference
    else pure ()

end Deadwood.Regex
