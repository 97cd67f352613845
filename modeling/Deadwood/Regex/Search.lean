import Deadwood.Regex
import Deadwood.Text.Blank
import Deadwood.Text.Case
import Deadwood.Text.Digit
import Deadwood.Text.Word

/-!
# Searching with regular expressions

`Regex.search` says whether an expression matches somewhere in a text. Alternatives are tried in
order and repetitions in the order of their mode; the first way to succeed counts. A round of a
repetition that consumes nothing is the last one.
-/

namespace Deadwood.Regex

/-- A point of a match: a position and what the groups have matched, as start and end. -/
structure Point where
  position : Nat
  groups : List (Nat × (Nat × Nat))
deriving Repr, DecidableEq

/-- What group `n` has matched. -/
def Point.group? (p : Point) (n : Nat) : Option (Nat × Nat) := (p.groups.find? (·.1 = n)).map (·.2)

/-! ## Single characters -/

/-- Whether a character belongs to a class; with `ascii`, only ASCII characters do. -/
def Category.mem (ascii : Bool) (k : Category) (c : Char) : Bool :=
  (!ascii || c.toNat < 128) && match k with
    | .digit => Text.isDecimal c
    | .space => Text.isBlank c
    | .word => Text.isWord c

/-- The code points that count as equal to that of `c`. -/
def variants (flags : Flags) (c : Char) : List Nat :=
  if !flags.ignoreCase then [c.toNat]
  else if flags.ascii then
    if 'a' ≤ c && c ≤ 'z' then [c.toNat, c.toNat - 32]
    else if 'A' ≤ c && c ≤ 'Z' then [c.toNat, c.toNat + 32]
    else [c.toNat]
  else Text.caseVariants c.toNat

/-- Whether a character belongs to a member of a set. -/
def SetItem.mem (flags : Flags) (c : Char) : SetItem → Bool
  | .code n => (variants flags c).contains n
  | .range lo hi => (variants flags c).any fun n => lo ≤ n && n ≤ hi
  | .category k negated => k.mem flags.ascii c != negated

/-- Whether a character at a position is a word character. -/
def wordAt (ascii : Bool) (text : Array Char) (i : Nat) : Bool :=
  match text[i]? with
  | some c => Category.word.mem ascii c
  | none => false

/-- Whether a condition on a position holds. -/
def Anchor.holds (flags : Flags) (text : Array Char) (i : Nat) : Anchor → Bool
  | .textStart => i = 0
  | .textEnd => i = text.size
  | .lineStart => i = 0 || (flags.multiline && text[i - 1]? = some '\n')
  | .lineEnd =>
    i = text.size || (i + 1 = text.size && text[i]? = some '\n') ||
      (flags.multiline && text[i]? = some '\n')
  | .boundary => isBoundary
  | .notBoundary => text.size ≠ 0 && !isBoundary
where
  /-- Whether exactly one of the neighbours is a word character. -/
  isBoundary : Bool :=
    (i ≠ 0 && wordAt flags.ascii text (i - 1)) != wordAt flags.ascii text i

/-! ## Matching -/

/-- What remains to be matched, as a function of the point reached. -/
abbrev Next := Point → Option Point

/-- Tries further rounds of `body`, `done` of them being complete; at most `fuel` more rounds can
consume a character. -/
def rounds (body : Next → Next) (lo : Nat) (hi : Option Nat) (reluctant : Bool) (next : Next) :
    Nat → Nat → Next
  | 0, _ => next
  | fuel + 1, done => fun p =>
    let mayContinue := match hi with
      | some n => decide (done < n)
      | none => true
    let again := fun (_ : Unit) =>
      if mayContinue then
        body (fun q =>
          if q.position = p.position then (if done < lo then next q else none)
          else rounds body lo hi reluctant next fuel (done + 1) q) p
      else none
    if done < lo then again ()
    else if reluctant then next p <|> again ()
    else again () <|> next p

/-- Whether the text between two positions stands again at `i`. -/
def repeatsAt (flags : Flags) (text : Array Char) (from_ to_ i : Nat) : Bool :=
  (List.range (to_ - from_)).all fun k =>
    match text[from_ + k]?, text[i + k]? with
    | some a, some b => (variants flags b).contains a.toNat
    | _, _ => false

/-- Matches an expression at a point and goes on with `next`. -/
def run (text : Array Char) : Regex → Next → Next
  | .empty, next => next
  | .oneOf flags negated items, next => fun p =>
    match text[p.position]? with
    | some c =>
      if items.any (·.mem flags c) != negated then next { p with position := p.position + 1 }
      else none
    | none => none
  | .any dotAll, next => fun p =>
    match text[p.position]? with
    | some c => if dotAll || c ≠ '\n' then next { p with position := p.position + 1 } else none
    | none => none
  | .seq a b, next => run text a (run text b next)
  | .alt a b, next => fun p => run text a next p <|> run text b next p
  | .loop lo hi mode body, next => fun p =>
    let fuel := text.size - p.position + 2
    match mode with
    | .possessive => (rounds (run text body) lo hi false some fuel 0 p).bind next
    | .greedy => rounds (run text body) lo hi false next fuel 0 p
    | .reluctant => rounds (run text body) lo hi true next fuel 0 p
  | .capture n body, next => fun p =>
    run text body
      (fun q => next { q with
        groups := (n, (p.position, q.position)) :: q.groups.filter (·.1 ≠ n) }) p
  | .scope body, next => run text body next
  | .atomic body, next => fun p => (run text body some p).bind next
  | .backref flags n, next => fun p =>
    match p.group? n with
    | some (i, j) =>
      if repeatsAt flags text i j p.position then
        next { p with position := p.position + (j - i) }
      else none
    | none => none
  | .ifGroup n yes no, next => fun p =>
    if (p.group? n).isSome then run text yes next p else run text no next p
  | .look behind negated w body, next => fun p =>
    let found :=
      if behind then
        if w.least ≤ p.position then run text body some { p with position := p.position - w.least }
        else none
      else run text body some p
    match found, negated with
    | some q, false => next { q with position := p.position }
    | none, true => next p
    | _, _ => none
  | .anchor flags a, next => fun p => if a.holds flags text p.position then next p else none

/-- Whether the expression matches at position `i`. -/
def matchesAt (r : Regex) (text : Array Char) (i : Nat) : Bool :=
  (run text r some ⟨i, []⟩).isSome

/-- Whether the expression matches somewhere in the text. -/
def search (r : Regex) (s : String) : Bool :=
  let text := s.toList.toArray
  (List.range (text.size + 1)).any fun i => r.matchesAt text i

end Deadwood.Regex
