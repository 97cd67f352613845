import Deadwood.Text.Blank

/-!
# Cutting texts

Trimming, splitting and searching, all defined on the list of characters.

* `trim`, `trimLeft` remove white space at the ends.
* `splitOn` cuts at every occurrence of a character, `cutLast` at the last one.
* `startsWith`, `endsWith`, `contains`, `replaceAll` search for a text, `replaceInTurn` for some
  characters.
-/

namespace Deadwood.Text

/-- `cs` without the white space at its front. -/
def dropBlank (cs : List Char) : List Char := cs.dropWhile isBlank

/-- `s` without the white space at its front. -/
def trimLeft (s : String) : String := .ofList (dropBlank s.toList)

/-- `s` without the white space at its two ends. -/
def trim (s : String) : String := .ofList (dropBlank (dropBlank s.toList).reverse).reverse

/-- Cuts at every `c`; the result is never empty. -/
def splitChars (c : Char) : List Char → List (List Char)
  | [] => [[]]
  | x :: rest =>
    if x = c then [] :: splitChars c rest
    else match splitChars c rest with
      | [] => [[x]]
      | piece :: pieces => (x :: piece) :: pieces

/-- The pieces of `s` between the occurrences of `c`, at least one. -/
def splitOn (c : Char) (s : String) : List String := (splitChars c s.toList).map .ofList

/-- The texts before and after the last `c`. -/
def cutLast (c : Char) (s : String) : Option (String × String) :=
  match s.toList.reverse.span (· ≠ c) with
  | (_, []) => none
  | (after, _ :: before) => some (.ofList before.reverse, .ofList after.reverse)

theorem length_span_loop_le (p : Char → Bool) (cs acc : List Char) :
    (List.span.loop p cs acc).2.length ≤ cs.length := by
  induction cs generalizing acc with
  | nil => exact Nat.le_refl 0
  | cons c rest ih =>
    have hstep : List.span.loop p (c :: rest) acc =
        bif p c then List.span.loop p rest (c :: acc) else (acc.reverse, c :: rest) := rfl
    rw [hstep]
    cases p c with
    | true => exact Nat.le_succ_of_le (ih _)
    | false => exact Nat.le_refl _

/-- What stands before the last `c` is shorter than the whole. -/
theorem length_lt_of_cutLast {c : Char} {s before after : String}
    (h : cutLast c s = some (before, after)) : before.toList.length < s.toList.length := by
  have hle := length_span_loop_le (· ≠ c) s.toList.reverse []
  unfold cutLast List.span at h
  split at h
  · cases h
  · rename_i front dot rest hspan
    cases h
    rw [hspan, List.length_reverse, List.length_cons] at hle
    simp only [String.toList_ofList, List.length_reverse]
    omega

/-- The texts before and after the first `c`. -/
def cutFirst (c : Char) (s : String) : Option (String × String) :=
  match s.toList.span (· ≠ c) with
  | (_, []) => none
  | (before, _ :: after) => some (.ofList before, .ofList after)

/-- Whether `s` begins with `p`. -/
def startsWith (s p : String) : Bool := p.toList.isPrefixOf s.toList

/-- Whether `s` ends with `p`. -/
def endsWith (s p : String) : Bool := p.toList.isSuffixOf s.toList

/-- Whether `p` occurs in `cs`. -/
def occursIn (p : List Char) : List Char → Bool
  | [] => p.isEmpty
  | c :: rest => p.isPrefixOf (c :: rest) || occursIn p rest

/-- Whether `p` occurs in `s`. -/
def contains (s p : String) : Bool := occursIn p.toList s.toList

/-- `s` without its first `n` characters. -/
def drop (s : String) (n : Nat) : String := .ofList (s.toList.drop n)

/-- The first `n` characters of `s`. -/
def take (s : String) (n : Nat) : String := .ofList (s.toList.take n)

/-- `s` without its last `n` characters. -/
def dropEnd (s : String) (n : Nat) : String := .ofList (s.toList.take (s.toList.length - n))

/-- Every character `c` replaced by `d`. -/
def replaceChar (c d : Char) (s : String) : String :=
  .ofList (s.toList.map fun x => if x = c then d else x)

/-- The non-overlapping occurrences of the non-empty `p`, from the left, replaced by `r`; `skip`
characters of an occurrence remain to be passed over. -/
def replaceFrom (p r : List Char) : Nat → List Char → List Char
  | _, [] => []
  | skip + 1, _ :: rest => replaceFrom p r skip rest
  | 0, c :: rest =>
    if p.isPrefixOf (c :: rest) then r ++ replaceFrom p r (p.length - 1) rest
    else c :: replaceFrom p r 0 rest

/-- Every occurrence of the non-empty text `p` replaced by `r`. -/
def replaceAll (s p r : String) : String := .ofList (replaceFrom p.toList r.toList 0 s.toList)

/-- Characters replaced by texts in `s`, one character after the other. -/
def replaceInTurn (es : List (Char × String)) (s : String) : String :=
  es.foldl (fun text e => replaceAll text (String.singleton e.1) e.2) s

/-- `s` written `n` times. -/
def times (n : Nat) (s : String) : String := String.join (List.replicate n s)

/-- `s` filled up with blanks on the right to at least `n` characters. -/
def padRight (n : Nat) (s : String) : String := s ++ .ofList (List.replicate (n - s.length) ' ')

end Deadwood.Text
