import Deadwood.Regex.Token
import Deadwood.Text.Digit
import Deadwood.Text.Word

/-!
# Settings in a pattern

Letters behind an opening parenthesis and a question mark switch settings on or off, for a group or
for the whole pattern.

* `Flags.put` switches one setting.
* `readFlags` reads the letters.
-/

namespace Deadwood.Regex

/-- Whether `c` is the letter of a setting. -/
def isFlag (c : Char) : Bool := "iLmsxatu".toList.contains c

/-- Whether `c` is the letter of a setting of the alphabet. -/
def isTypeFlag (c : Char) : Bool := c = 'a' || c = 'L' || c = 'u'

/-- Whether a token is a letter. -/
def isLetterToken : Token → Bool
  | .plain c => Text.isWord c && c ≠ '_' && !Text.isDigit c
  | _ => false

/-- Switches a setting. -/
def Flags.put (f : Flags) (c : Char) (on : Bool) : Flags :=
  if c = 'i' then { f with ignoreCase := on }
  else if c = 'm' then { f with multiline := on }
  else if c = 's' then { f with dotAll := on }
  else if c = 'x' then { f with verbose := on }
  else if c = 'a' then { f with ascii := on }
  else if c = 'u' then { f with ascii := !on }
  else if c = 't' then { f with template := on }
  else f

/-- The letters of settings to be switched on, from `c`, and the character that ends them. -/
def flagsOn : Nat → Char → List Char → Read (List Char × Char)
  | 0, c, on => pure (on, c)
  | fuel + 1, c, on => do
    if c = 'L' then failHere .localeFlag
    else if isTypeFlag c && on.any fun d => isTypeFlag d && d ≠ c then failHere .incompatibleFlags
    else
      let on := on ++ [c]
      match ← take with
      | none => failHere .missingAfterFlags
      | some t =>
        match t with
        | .plain d =>
          if d = ')' || d = '-' || d = ':' then pure (on, d)
          else if isFlag d then flagsOn fuel d on
          else failAt (if isLetterToken t then .unknownFlag else .missingAfterFlags) t.size
        | _ => failAt .missingAfterFlags t.size

/-- The letters of settings to be switched off, from `c`, up to a colon. -/
def flagsOff : Nat → Char → List Char → Read (List Char)
  | 0, _, off => pure off
  | fuel + 1, c, off => do
    if isTypeFlag c then failHere .turnOffType
    else
      let off := off ++ [c]
      match ← take with
      | none => failHere .missingColon
      | some t =>
        match t with
        | .plain d =>
          if d = ':' then pure off
          else if isFlag d then flagsOff fuel d off
          else failAt (if isLetterToken t then .unknownFlag else .missingColon) t.size
        | _ => failAt .missingColon t.size

/-- Settings after an opening parenthesis and question mark; `none` for the whole pattern. -/
def readFlags (c : Char) : Read (Option (List Char × List Char)) := do
  let fuel := (← get).tokens.length + 1
  let (on, stop) ← if c = '-' then pure ([], '-') else flagsOn fuel c []
  if stop = ')' then
    modify fun s => { s with
      flags := on.foldl (fun f d => f.put d true) s.flags, letters := s.letters ++ on }
    pure none
  else if on.contains 't' then failAt .turnOnGlobal 1
  else
    let off ←
      if stop = '-' then
        match ← take with
        | none => failHere .missingFlag
        | some t =>
          match t with
          | .plain d =>
            if isFlag d then flagsOff fuel d []
            else failAt (if isLetterToken t then .unknownFlag else .missingFlag) t.size
          | _ => failAt .missingFlag t.size
      else pure []
    if off.contains 't' then failAt .turnOffGlobal 1
    else if on.any off.contains then failAt .turnedOnAndOff 1
    else pure (some (on, off))

end Deadwood.Regex
