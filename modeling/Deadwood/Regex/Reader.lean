import Deadwood.Regex.Escape
import Deadwood.Regex.Settings
import Deadwood.Text.Integer

/-!
# Reading regular expressions

`Regex.parse` reads a pattern: alternatives of sequences of items, each of which may be repeated.

* `repeatLast` repeats an item.
* `readOpening` says what an opening parenthesis begins.
* `readAlternatives` and `readItems` read the expressions inside one another.
* `flaw?` finds what cannot be matched in an expression that is well formed otherwise.
-/

namespace Deadwood.Regex

/-! ## Repetitions -/

/-- The largest number of rounds. -/
def maxRounds : Nat := 4294967295

/-- The bounds in braces, after the opening brace; `none` if the brace stands for itself. -/
def readBounds (start : Nat) : Read (Option (Nat × Option Nat)) := do
  let saved ← get
  let fuel := saved.tokens.length
  if (← peek) = some (.plain '\x7d') then pure none
  else
    let lo ← takeWhile isAsciiDigit fuel
    let comma ← accept ','
    let hi ← if comma then takeWhile isAsciiDigit fuel else pure lo
    if ← accept '\x7d' then
      let least := inBase 10 lo
      if maxRounds ≤ least then throw .tooLarge
      else if hi.isEmpty then pure (some (least, none))
      else
        let most := inBase 10 hi
        if maxRounds ≤ most then throw .tooLarge
        else if most < least then failAt .minAboveMax ((← position) - start)
        else pure (some (least, some most))
    else
      set saved
      pure none

/-- The mode of a repetition, by the mark behind it. -/
def repeatMode : Read Mode := do
  if ← accept '?' then return .reluctant
  if ← accept '+' then return .possessive
  return .greedy

/-- Repeats the last of the expressions read so far (in reverse). -/
def repeatLast (start size lo : Nat) (hi : Option Nat) : List Regex → Read (List Regex)
  | [] => do failAt .nothingToRepeat ((← position) - start + size)
  | .anchor .. :: _ => do failAt .nothingToRepeat ((← position) - start + size)
  | .loop .. :: _ => do failAt .multipleRepeat ((← position) - start + size)
  | item :: before => do
    let mode ← repeatMode
    pure (.loop lo hi mode item :: before)

/-! ## Groups -/

/-- What an opening parenthesis begins. -/
inductive Opening where
  | capturing (name : Option String)
  | scoped (on off : List Char)
  | atomic
  | look (behind negated : Bool)
  | condition (n : Nat)
  /-- Already complete, with an expression or nothing. -/
  | done (r : Option Regex)
  /-- Settings for the whole pattern. -/
  | settings

/-- Skips a comment up to its closing parenthesis; the comment was opened at `start`. -/
def skipComment (start : Nat) : Nat → Read Unit
  | 0 => pure ()
  | fuel + 1 => do
    match ← peek with
    | none => failAt .unterminatedComment ((← position) - start)
    | some _ => if (← take) = some (.plain ')') then pure () else skipComment start fuel

/-- The number of the group with a name, which ends `offset` characters back. -/
def groupNumber (name : String) : Read Nat := do
  match (← get).names.find? (·.1 = name) with
  | some (_, n) => pure n
  | none => failAt (.unknownGroupName name) (name.length + 1)

/-- A reference to a group by its name. -/
def nameReference (flags : Flags) : Read Regex := do
  let name ← takeName ')' "group name"
  checkGroupName name 1
  let n ← groupNumber name
  if !(← isClosed n) then failAt .openGroupReference (name.length + 1)
  else
    checkBehind n
    pure (.backref flags n)

/-- The group on which a condition depends. -/
def readCondition : Read Nat := do
  let name ← takeName ')' "group name"
  let n ←
    if isIdentifier name then groupNumber name
    else
      match Text.readInt? name with
      | some (.ofNat 0) => failAt .badGroupNumber (name.length + 1)
      | some (.ofNat n) =>
        if 1073741823 ≤ n then failAt (.invalidReference n) (name.length + 1)
        else
          modify fun s =>
            if s.conditions.any (·.1 = n) then s
            else { s with conditions := s.conditions ++ [(n, s.position - name.length - 1)] }
          pure n
      | _ => failAt (.badGroupName name) (name.length + 1)
  checkBehind n
  pure n

/-- What follows an opening parenthesis that stands at `start`. -/
def readOpening (flags : Flags) (start : Nat) : Read Opening := do
  if !(← accept '?') then pure (.capturing none)
  else
    match ← take with
    | none => failHere .unexpectedEnd
    | some t =>
      match t with
      | .plain 'P' =>
        if ← accept '<' then
          let name ← takeName '>' "group name"
          checkGroupName name 1
          pure (.capturing (some name))
        else if ← accept '=' then (.done ∘ some) <$> nameReference flags
        else
          match ← take with
          | none => failHere .unexpectedEnd
          | some t' => failAt (.unknownExtension ("P" ++ t'.text)) (t'.size + 2)
      | .plain ':' => pure (.scoped [] [])
      | .plain '#' =>
        skipComment start ((← get).tokens.length + 1)
        pure (.done none)
      | .plain '=' => pure (.look false false)
      | .plain '!' => pure (.look false true)
      | .plain '<' =>
        match ← take with
        | none => failHere .unexpectedEnd
        | some t' =>
          if t' = .plain '=' then pure (.look true false)
          else if t' = .plain '!' then pure (.look true true)
          else failAt (.unknownExtension ("<" ++ t'.text)) (t'.size + 2)
      | .plain '(' => .condition <$> readCondition
      | .plain '>' => pure .atomic
      | .plain c =>
        if isFlag c || c = '-' then
          match ← readFlags c with
          | none => pure .settings
          | some (on, off) => pure (.scoped on off)
        else failAt (.unknownExtension t.text) (t.size + 1)
      | _ => failAt (.unknownExtension t.text) (t.size + 1)

/-- Opens a capturing group and gives its number. -/
def openGroup (name : Option String) : Read Nat := do
  let s ← get
  let n := s.groups
  match name with
  | none =>
    set { s with groups := n + 1 }
    pure n
  | some name =>
    match s.names.find? (·.1 = name) with
    | some (_, old) => failAt (.redefinedGroup name n old) (name.length + 1)
    | none =>
      set { s with groups := n + 1, names := s.names ++ [(name, n)] }
      pure n

/-- Takes the closing parenthesis of a group opened at `start`. -/
def closeParenthesis (start : Nat) : Read Unit := do
  if ← accept ')' then pure () else failAt .unterminatedGroup ((← position) - start)

/-- The widths of the closed groups. -/
def widths (s : ReadState) (n : Nat) : Width :=
  ((s.closed.find? (·.1 = n)).map (·.2)).getD (.exactly 0)

/-- Skips a comment line of a verbose pattern. -/
def skipLine : Nat → Read Unit
  | 0 => pure ()
  | fuel + 1 => do
    match ← take with
    | none => pure ()
    | some t => if t = .plain '\n' then pure () else skipLine fuel

/-- White space that a verbose pattern ignores. -/
def isIgnoredSpace (c : Char) : Bool := " \t\n\r".toList.contains c || c.toNat = 11 || c.toNat = 12

mutual

/-- Alternatives; `top` says that they are those of the whole pattern. -/
def readAlternatives (top : Bool) : Nat → Flags → Read Regex
  | 0, _ => pure .empty
  | fuel + 1, flags => do
    let first ← readItems top fuel flags []
    if ← accept '|' then
      let flags ← if top then (·.flags) <$> get else pure flags
      let rest ← readMore top fuel flags
      pure (.alt first rest)
    else pure first

/-- The alternatives after the first. -/
def readMore (top : Bool) : Nat → Flags → Read Regex
  | 0, _ => pure .empty
  | fuel + 1, flags => do
    let first ← readItems false fuel flags []
    if ← accept '|' then
      let flags ← if top then (·.flags) <$> get else pure flags
      let rest ← readMore top fuel flags
      pure (.alt first rest)
    else pure first

/-- The expressions of one alternative, behind those read so far (in reverse); `first` says that
settings for the whole pattern may still come. -/
def readItems (first : Bool) : Nat → Flags → List Regex → Read Regex
  | 0, _, done => pure (sequence done.reverse)
  | fuel + 1, flags, done => do
    match ← peek with
    | none | some (.plain '|') | some (.plain ')') => pure (sequence done.reverse)
    | some t =>
      let _ ← take
      match t with
      | .escaped c =>
        let r ← escape flags c
        readItems first fuel flags (r :: done)
      | .dangling => readItems first fuel flags done
      | .plain c =>
        let start := (← position) - 1
        if flags.verbose && isIgnoredSpace c then readItems first fuel flags done
        else if flags.verbose && c = '#' then
          skipLine ((← get).tokens.length + 1)
          readItems first fuel flags done
        else if c = '[' then
          let negated ← accept '^'
          let items ← readSet start ((← get).tokens.length + 1) []
          readItems first fuel flags (.oneOf flags negated items :: done)
        else if c = '?' || c = '*' || c = '+' then
          let (lo, hi) := if c = '?' then (0, some 1) else if c = '*' then (0, none) else (1, none)
          let done ← repeatLast (start + 1) 1 lo hi done
          readItems first fuel flags done
        else if c = '\x7b' then
          match ← readBounds (start + 1) with
          | none => readItems first fuel flags (single flags c.toNat :: done)
          | some (lo, hi) =>
            let done ← repeatLast (start + 1) 1 lo hi done
            readItems first fuel flags done
        else if c = '.' then readItems first fuel flags (.any flags.dotAll :: done)
        else if c = '^' then readItems first fuel flags (.anchor flags .lineStart :: done)
        else if c = '$' then readItems first fuel flags (.anchor flags .lineEnd :: done)
        else if c = '(' then
          match ← readOpening flags start with
          | .done none => readItems first fuel flags done
          | .done (some r) => readItems first fuel flags (r :: done)
          | .settings =>
            if first && done.isEmpty then readItems first fuel (← get).flags done
            else failAt .lateGlobalFlags ((← position) - start)
          | .capturing name =>
            let n ← openGroup name
            let body ← readAlternatives false fuel flags
            closeParenthesis start
            modify fun s => { s with closed := (n, body.width (widths s)) :: s.closed }
            readItems first fuel flags (.capture n body :: done)
          | .scoped on off =>
            let inner :=
              off.foldl (fun f d => f.put d false) (on.foldl (fun f d => f.put d true) flags)
            let body ← readAlternatives false fuel inner
            closeParenthesis start
            readItems first fuel flags (.scope body :: done)
          | .atomic =>
            let body ← readAlternatives false fuel flags
            closeParenthesis start
            readItems first fuel flags (.atomic body :: done)
          | .look behind negated =>
            let outer := (← get).behind
            if behind && outer.isNone then modify fun s => { s with behind := some s.groups }
            let body ← readAlternatives false fuel flags
            if behind && outer.isNone then modify fun s => { s with behind := none }
            closeParenthesis start
            let w := body.width (widths (← get))
            readItems first fuel flags (.look behind negated w body :: done)
          | .condition n =>
            let yes ← readItems false fuel flags []
            let no ←
              if ← accept '|' then
                let no ← readItems false fuel flags []
                if (← peek) = some (.plain '|') then failHere .tooManyBranches else pure no
              else pure .empty
            closeParenthesis start
            readItems first fuel flags (.ifGroup n yes no :: done)
        else readItems first fuel flags (single flags c.toNat :: done)

end

/-- The first part of an expression that cannot be matched: a look-behind without a fixed width or,
in a `template`, a repetition. -/
def flaw? (template : Bool) : Regex → Option Fault
  | .seq a b | .alt a b | .ifGroup _ a b => (flaw? template a).or (flaw? template b)
  | .loop _ _ mode r => if template then some (.refusedRepeat mode) else flaw? template r
  | .capture _ r | .scope r | .atomic r => flaw? template r
  | .look behind _ w r =>
    if behind && !w.isFixed then some .variableLookBehind else flaw? template r
  | _ => none

/-- The expression of a whole pattern. -/
def readPattern : Read Regex := do
  checkDangling
  let r ← readAlternatives true (4 * (← get).tokens.length + 8) {}
  let s ← get
  if s.letters.contains 'a' && s.letters.contains 'u' then throw .twoAlphabets
  else if s.tokens ≠ [] then failHere .unbalancedParenthesis
  else
    match s.conditions.find? fun (n, _) => s.groups ≤ n with
    | some (n, at_) => throw (.malformed (.invalidReference n) (some at_))
    | none =>
      match flaw? s.flags.template r with
      | some fault => throw (.malformed fault none)
      | none => pure r

/-- Reads a pattern. -/
def parse (pattern : String) : Except Error Regex :=
  (readPattern { tokens := Token.scan pattern.toList }).map (·.1)

end Deadwood.Regex
