/-!
# File name patterns

In a pattern `*` stands for any text, `?` for any character and `[...]` for one of a set of
characters, or with `!` in front for one outside the set; everything else stands for itself. An
opening bracket that is never closed stands for itself, too. A pattern must fit the whole text.

* `Glob.ofText` reads a pattern.
* `Glob.fits` says whether a text fits.
-/

namespace Deadwood

/-- A set of characters: single ones, and all from one to another. -/
structure CharClass where
  negated : Bool := false
  singles : List Char := []
  ranges : List (Char × Char) := []
deriving Repr, DecidableEq, Inhabited

/-- Whether a character belongs to the set. -/
def CharClass.holds (k : CharClass) (c : Char) : Bool :=
  k.negated ^^ (k.singles.contains c || k.ranges.any fun r => r.1 ≤ c && c ≤ r.2)

/-- A part of a pattern. -/
inductive GlobPart where
  | star
  | one
  | char (c : Char)
  | among (k : CharClass)
deriving Repr, DecidableEq, Inhabited

/-- A pattern for file names. -/
structure Glob where
  parts : List GlobPart
deriving Repr, DecidableEq, Inhabited

namespace Glob

/-! ## Sets of characters -/

/-- The texts before and after the first hyphen that has at least `least` characters before it. -/
def cutHyphen (least : Nat) (cs : List Char) : Option (List Char × List Char) :=
  match (cs.drop least).span (· ≠ '-') with
  | (_, []) => none
  | (front, _ :: after) => some (cs.take least ++ front, after)

/-- The pieces of a set between the hyphens that make ranges: such a hyphen stands behind a
character that does not itself end a range. -/
def hyphenated : Nat → Nat → List Char → List (List Char)
  | 0, _, cs => [cs]
  | fuel + 1, least, cs =>
    match cutHyphen least cs with
    | none => [cs]
    | some (front, []) => [front ++ ['-']]
    | some (front, after) => front :: hyphenated fuel 2 after

/-- Takes out the ranges that go down, with their ends. -/
def dropEmptyRanges : List (List Char) → List (List Char)
  | [] => []
  | piece :: rest =>
    match dropEmptyRanges rest with
    | [] => [piece]
    | next :: more =>
      match piece.getLast?, next.head? with
      | some lo, some hi =>
        if hi < lo then (piece.dropLast ++ next.drop 1) :: more else piece :: next :: more
      | _, _ => piece :: next :: more

/-- The ranges between neighbouring pieces. -/
def rangesBetween : List (List Char) → List (Char × Char)
  | a :: b :: rest =>
    match a.getLast?, b.head? with
    | some lo, some hi => (lo, hi) :: rangesBetween (b :: rest)
    | _, _ => rangesBetween (b :: rest)
  | _ => []

/-- The set with the given content between its brackets. -/
def classOf (content : List Char) : CharClass :=
  let negated := content.head? = some '!'
  let body := if negated then content.drop 1 else content
  let pieces := dropEmptyRanges (hyphenated body.length 1 body)
  if negated then ⟨true, pieces.flatten, rangesBetween pieces⟩
  else match pieces with
    | ['!'] :: next :: rest => ⟨true, '-' :: (next :: rest).flatten, rangesBetween (next :: rest)⟩
    | ('!' :: first) :: rest => ⟨true, (first :: rest).flatten, rangesBetween (first :: rest)⟩
    | _ => ⟨false, pieces.flatten, rangesBetween pieces⟩

/-- The content of a set behind its opening bracket, and the rest behind the closing one. A closing
bracket at the front, possibly behind the `!`, belongs to the content. -/
def bracket? (cs : List Char) : Option (List Char × List Char) :=
  let lead := if cs.head? = some '!' then 1 else 0
  let lead := if (cs.drop lead).head? = some ']' then lead + 1 else lead
  match (cs.drop lead).span (· ≠ ']') with
  | (_, []) => none
  | (content, _ :: after) => some (cs.take lead ++ content, after)

/-! ## Reading -/

/-- A star in front of a pattern; of stars in a row one is enough. -/
def addStar : List GlobPart → List GlobPart
  | .star :: parts => .star :: parts
  | parts => .star :: parts

/-- The parts of a pattern; `skip` characters belong to a set that was read before. -/
def partsFrom : Nat → List Char → List GlobPart
  | _, [] => []
  | skip + 1, _ :: rest => partsFrom skip rest
  | 0, c :: rest =>
    if c = '*' then addStar (partsFrom 0 rest)
    else if c = '?' then .one :: partsFrom 0 rest
    else if c = '[' then
      match bracket? rest with
      | some (content, after) =>
        .among (classOf content) :: partsFrom (rest.length - after.length) rest
      | none => .char c :: partsFrom 0 rest
    else .char c :: partsFrom 0 rest

/-- The pattern that a text writes. -/
def ofText (s : String) : Glob := ⟨partsFrom 0 s.toList⟩

/-! ## Fitting -/

/-- A text and its ends. -/
def endings : List Char → List (List Char)
  | [] => [[]]
  | c :: rest => (c :: rest) :: endings rest

/-- Whether a text fits the parts of a pattern. -/
def fitsParts : List GlobPart → List Char → Bool
  | [], cs => cs.isEmpty
  | .star :: parts, cs => (endings cs).any (fitsParts parts)
  | .one :: parts, cs =>
    match cs with
    | _ :: rest => fitsParts parts rest
    | [] => false
  | .char c :: parts, cs =>
    match cs with
    | d :: rest => c = d && fitsParts parts rest
    | [] => false
  | .among k :: parts, cs =>
    match cs with
    | d :: rest => k.holds d && fitsParts parts rest
    | [] => false

/-- Whether a text fits the pattern. -/
def fits (g : Glob) (s : String) : Bool := fitsParts g.parts s.toList

end Glob

end Deadwood
