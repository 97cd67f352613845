/-!
# Regular expressions

The syntax of regular expressions as they may stand in a configuration: characters, sets, anchors,
repetitions (greedy, lazy and possessive), groups, references to groups, conditions on groups,
look-ahead and look-behind. Settings such as ignoring case are recorded where they apply.
-/

namespace Deadwood

namespace Regex

/-- The settings in force at a point of an expression. -/
structure Flags where
  ignoreCase : Bool := false
  multiline : Bool := false
  dotAll : Bool := false
  verbose : Bool := false
  ascii : Bool := false
  /-- Whether repetitions are refused. -/
  template : Bool := false
deriving Repr, DecidableEq, Inhabited

/-- Named classes of characters. -/
inductive Category where
  | digit
  | space
  | word
deriving Repr, DecidableEq

/-- A member of a character set; characters are given by their code points. -/
inductive SetItem where
  | code (n : Nat)
  | range (lo hi : Nat)
  | category (k : Category) (negated : Bool)
deriving Repr, DecidableEq

/-- Conditions on a position. -/
inductive Anchor where
  | lineStart
  | lineEnd
  | textStart
  | textEnd
  | boundary
  | notBoundary
deriving Repr, DecidableEq

/-- How a repetition chooses its number of rounds. -/
inductive Mode where
  | greedy
  | reluctant
  | possessive
deriving Repr, DecidableEq

/-- The numbers of characters that an expression can match; no upper end means unbounded. -/
structure Width where
  least : Nat
  most : Option Nat
deriving Repr, DecidableEq, Inhabited

namespace Width

/-- Exactly `n` characters. -/
def exactly (n : Nat) : Width := ⟨n, some n⟩

/-- One after the other. -/
def add (a b : Width) : Width :=
  ⟨a.least + b.least, match a.most, b.most with
    | some x, some y => some (x + y)
    | _, _ => none⟩

/-- One or the other. -/
def either (a b : Width) : Width :=
  ⟨min a.least b.least, match a.most, b.most with
    | some x, some y => some (max x y)
    | _, _ => none⟩

/-- Between `lo` and `hi` rounds. -/
def rounds (w : Width) (lo : Nat) (hi : Option Nat) : Width :=
  ⟨w.least * lo, match w.most, hi with
    | some x, some y => some (x * y)
    | some 0, none => some 0
    | _, _ => none⟩

/-- Whether only one number of characters is possible. -/
def isFixed (w : Width) : Bool := w.most = some w.least

end Width

end Regex

/-- A regular expression. -/
inductive Regex where
  /-- Matches the empty text. -/
  | empty
  /-- Matches one character inside (or outside) a set. -/
  | oneOf (flags : Regex.Flags) (negated : Bool) (items : List Regex.SetItem)
  /-- Matches one character, which may be a line break only if `dotAll` is set. -/
  | any (dotAll : Bool)
  | seq (first second : Regex)
  | alt (first second : Regex)
  | loop (lo : Nat) (hi : Option Nat) (mode : Regex.Mode) (body : Regex)
  | capture (n : Nat) (body : Regex)
  /-- A group that captures nothing. -/
  | scope (body : Regex)
  /-- A group that is not entered again once it has matched. -/
  | atomic (body : Regex)
  /-- The text that a group has matched. -/
  | backref (flags : Regex.Flags) (n : Nat)
  /-- One of two expressions, by whether a group has matched. -/
  | ifGroup (n : Nat) (yes no : Regex)
  /-- A condition on what follows or, if `behind`, on what comes before. -/
  | look (behind negated : Bool) (width : Regex.Width) (body : Regex)
  | anchor (flags : Regex.Flags) (a : Regex.Anchor)
deriving Repr, DecidableEq, Inhabited

namespace Regex

/-- The numbers of characters that the expression can match, given those of the groups. -/
def width (groups : Nat → Width) : Regex → Width
  | .empty => .exactly 0
  | .oneOf .. | .any _ => .exactly 1
  | .seq a b => (a.width groups).add (b.width groups)
  | .alt a b => (a.width groups).either (b.width groups)
  | .loop lo hi _ r => (r.width groups).rounds lo hi
  | .capture _ r | .scope r | .atomic r => r.width groups
  | .backref _ n => groups n
  | .ifGroup _ a b => (a.width groups).either (b.width groups)
  | .look .. | .anchor .. => .exactly 0

/-- The expressions one after the other. -/
def sequence : List Regex → Regex
  | [] => .empty
  | [r] => r
  | r :: rest => .seq r (sequence rest)

end Regex

end Deadwood
