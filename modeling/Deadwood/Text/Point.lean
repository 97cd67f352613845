/-!
# Code points that are no characters

Half of a surrogate pair is a code point, but no character, and UTF-8 cannot write it. Escapes can.
A text holds it as two characters: a mark, and a character that stands for the half. The mark itself
is doubled. So different sequences of code points are different texts, and their order is that of
the texts.

* `ofPoint` writes a code point, `points` cuts a text into its code points.
* `ofBytes?` is the text that bytes encode, `toBytes?` encodes a text, unless half of a pair stands
  in it.
-/

namespace Deadwood.Text

/-- The character that stands before the one for half of a surrogate pair. -/
def mark : Char := '\ud7ff'

/-- A character as part of a text. -/
def ofChar (c : Char) : List Char := if c = mark then [mark, mark] else [c]

/-- A code point as part of a text. -/
def ofPoint (n : Nat) : List Char :=
  if 0xD800 ≤ n && n ≤ 0xDFFF then [mark, Char.ofNat (n + 0x800)] else ofChar (Char.ofNat n)

/-- The code points of a text, each as a text of its own. -/
def points : List Char → List (List Char)
  | [] => []
  | [c] => [[c]]
  | c :: d :: rest => if c = mark then [c, d] :: points rest else [c] :: points (d :: rest)

theorem exists_points (c : Char) (rest : List Char) : ∃ p ps, points (c :: rest) = p :: ps := by
  cases rest with
  | nil => exact ⟨[c], [], rfl⟩
  | cons d rest =>
    rw [points]
    split
    · exact ⟨_, _, rfl⟩
    · exact ⟨_, _, rfl⟩

/-- The characters that a text consists of; none if half of a surrogate pair stands in it. -/
def characters? : List Char → Option (List Char)
  | [] => some []
  | [c] => if c = mark then none else some [c]
  | c :: d :: rest =>
    if c = mark then if d = mark then (characters? rest).map (mark :: ·) else none
    else (characters? (d :: rest)).map (c :: ·)

/-- The text that bytes encode in UTF-8. -/
def ofBytes? (bytes : List UInt8) : Option String :=
  (String.fromUTF8? ⟨bytes.toArray⟩).map fun s => .ofList (s.toList.flatMap ofChar)

/-- The bytes of a text in UTF-8; none if half of a surrogate pair stands in it. -/
def toBytes? (s : String) : Option (List UInt8) :=
  (characters? s.toList).map fun cs => (String.ofList cs).toUTF8.toList

/-- The characters of a text make up the text. -/
theorem flatMap_ofChar_of_characters? {cs ds : List Char} (h : characters? cs = some ds) :
    ds.flatMap ofChar = cs := by
  induction cs using characters?.induct generalizing ds with
  | case1 =>
    obtain rfl : ds = [] := by simpa [characters?] using h.symm
    rfl
  | case2 => simp [characters?] at h
  | case3 c hc =>
    obtain rfl : [c] = ds := by simpa [characters?, hc] using h
    simp [ofChar, hc]
  | case4 rest ih =>
    obtain ⟨es, hes, rfl⟩ : ∃ es, characters? rest = some es ∧ mark :: es = ds := by
      simpa [characters?] using h
    simp [ofChar, ih hes]
  | case5 d rest hd => simp [characters?, hd] at h
  | case6 c d rest hc ih =>
    obtain ⟨es, hes, rfl⟩ : ∃ es, characters? (d :: rest) = some es ∧ c :: es = ds := by
      simpa [characters?, hc] using h
    simp [ofChar, hc, ih hes]

end Deadwood.Text
