import Deadwood.Regex
import Deadwood.Text.Quoted

/-!
# Malformed patterns

A pattern that is not well formed gives an `Error`: what is wrong and, where it can be said, at
which character.

* `Fault` is what is wrong, `Fault.text` its wording.
* `Error.message` is the whole message, with line and column for a pattern of several lines.
-/

namespace Deadwood.Regex

/-- What is wrong with a pattern. -/
inductive Fault where
  | danglingEscape
  | badEscape (text : String)
  | incompleteEscape (text : String)
  | missingBrace
  | unknownCharacter (name : String)
  | octalTooLarge (text : String)
  | openGroupReference
  | lookBehindReference
  | invalidReference (n : Nat)
  | unterminatedSet
  | badRange (lo hi : String)
  | minAboveMax
  | nothingToRepeat
  | multipleRepeat
  | unexpectedEnd
  | missingName (what : String)
  | unterminatedName (terminator : String)
  | badGroupName (name : String)
  | unknownGroupName (name : String)
  | redefinedGroup (name : String) (new old : Nat)
  | badGroupNumber
  | unknownExtension (text : String)
  | unterminatedComment
  | unterminatedGroup
  | tooManyBranches
  | lateGlobalFlags
  | localeFlag
  | incompatibleFlags
  | missingAfterFlags
  | unknownFlag
  | turnOnGlobal
  | missingFlag
  | turnOffType
  | missingColon
  | turnOffGlobal
  | turnedOnAndOff
  | unbalancedParenthesis
  | variableLookBehind
  | refusedRepeat (mode : Mode)
deriving Repr, DecidableEq

/-- The wording of a fault. -/
def Fault.text : Fault → String
  | .danglingEscape => "bad escape (end of pattern)"
  | .badEscape t => "bad escape " ++ t
  | .incompleteEscape t => "incomplete escape " ++ t
  | .missingBrace => "missing \x7b"
  | .unknownCharacter n => "undefined character name " ++ Text.quoted n
  | .octalTooLarge t => "octal escape value " ++ t ++ " outside of range 0-0o377"
  | .openGroupReference => "cannot refer to an open group"
  | .lookBehindReference => "cannot refer to group defined in the same lookbehind subpattern"
  | .invalidReference n => "invalid group reference " ++ toString n
  | .unterminatedSet => "unterminated character set"
  | .badRange lo hi => "bad character range " ++ lo ++ "-" ++ hi
  | .minAboveMax => "min repeat greater than max repeat"
  | .nothingToRepeat => "nothing to repeat"
  | .multipleRepeat => "multiple repeat"
  | .unexpectedEnd => "unexpected end of pattern"
  | .missingName what => "missing " ++ what
  | .unterminatedName t => "missing " ++ t ++ ", unterminated name"
  | .badGroupName n => "bad character in group name " ++ Text.quoted n
  | .unknownGroupName n => "unknown group name " ++ Text.quoted n
  | .redefinedGroup n new old =>
    "redefinition of group name " ++ Text.quoted n ++ " as group " ++ toString new ++
      "; was group " ++ toString old
  | .badGroupNumber => "bad group number"
  | .unknownExtension t => "unknown extension ?" ++ t
  | .unterminatedComment => "missing ), unterminated comment"
  | .unterminatedGroup => "missing ), unterminated subpattern"
  | .tooManyBranches => "conditional backref with more than two branches"
  | .lateGlobalFlags => "global flags not at the start of the expression"
  | .localeFlag => "bad inline flags: cannot use 'L' flag with a str pattern"
  | .incompatibleFlags => "bad inline flags: flags 'a', 'u' and 'L' are incompatible"
  | .missingAfterFlags => "missing -, : or )"
  | .unknownFlag => "unknown flag"
  | .turnOnGlobal => "bad inline flags: cannot turn on global flag"
  | .missingFlag => "missing flag"
  | .turnOffType => "bad inline flags: cannot turn off flags 'a', 'u' and 'L'"
  | .missingColon => "missing :"
  | .turnOffGlobal => "bad inline flags: cannot turn off global flag"
  | .turnedOnAndOff => "bad inline flags: flag turned on and off"
  | .unbalancedParenthesis => "unbalanced parenthesis"
  | .variableLookBehind => "look-behind requires fixed-width pattern"
  | .refusedRepeat .greedy => "internal: unsupported template operator MAX_REPEAT"
  | .refusedRepeat .reluctant => "internal: unsupported template operator MIN_REPEAT"
  | .refusedRepeat .possessive => "internal: unsupported template operator POSSESSIVE_REPEAT"

/-- Why a pattern could not be read. -/
inductive Error where
  /-- The pattern is malformed, at a character if one can be named. -/
  | malformed (fault : Fault) (position : Option Nat)
  /-- A number of rounds is beyond what can be counted. -/
  | tooLarge
  /-- The settings ask for all characters and for ASCII only. -/
  | twoAlphabets
deriving Repr, DecidableEq

/-- The message for a malformed pattern; with line and column if the pattern has several lines. -/
def Error.message (pattern : String) : Error → String
  | .malformed fault none => fault.text
  | .malformed fault (some pos) =>
    let before := pattern.toList.take pos
    let base := fault.text ++ " at position " ++ toString pos
    if pattern.toList.contains '\n' then
      let line := before.count '\n' + 1
      let column := (before.reverse.takeWhile (· ≠ '\n')).length + 1
      base ++ " (line " ++ toString line ++ ", column " ++ toString column ++ ")"
    else base
  | .tooLarge => "the repetition number is too large"
  | .twoAlphabets => "ASCII and UNICODE flags are incompatible"

end Deadwood.Regex
