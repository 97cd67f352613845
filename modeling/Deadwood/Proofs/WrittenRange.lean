import Mathlib.Algebra.Group.Nat.Defs
import Mathlib.Data.List.Basic
import Mathlib.Data.List.TakeDrop
import Mathlib.Data.List.TakeWhile
import Mathlib.Tactic.SplitIfs
import Deadwood.Ignore.Compile

/-!
# Ranges of arities

A range of arities is written as two numbers joined by two dots, with white space anywhere around
the numbers, or given as the integers below a bound.

* `readDigits?_toDigits`: the digits of a number are read as that number unless there are too many.
* `trim_surrounded`: trimming removes the white space around a text, and nothing else.
* `rangeEnds?_eq_some_iff`: which texts are written ranges, and their ends.
* `compileArity_written`, `compileArity_range`: both forms stand for the arities between the two
  ends, except where a number has too many digits or the integers are too many.
-/

namespace Deadwood.Text

/-! ## Digits -/

theorem decimalValue?_of_isDigit {c : Char} (h : c.isDigit = true) :
    decimalValue? c = some (c.toNat - 48) := by
  have hcode : 48 ≤ c.toNat ∧ c.toNat < 58 := by
    simp only [Char.isDigit, Bool.and_eq_true, decide_eq_true_eq] at h
    exact ⟨h.1, Nat.lt_succ_of_le h.2⟩
  simp [decimalValue?, zeros, hcode.1, hcode.2]

theorem isDecimal_of_isDigit {c : Char} (h : c.isDigit = true) : isDecimal c = true := by
  rw [isDecimal, decimalValue?_of_isDigit h]
  rfl

/-- A code point of a set lies between the first two flips or belongs to what the others give. -/
theorem CharSet.holds_cons_cons {n x y : Nat} {rest : List Nat}
    (h : holds n false (x :: y :: rest) = true) :
    x ≤ n ∧ n < y ∨ holds n false rest = true := by
  simp only [holds] at h
  split_ifs at h with hx hy
  · exact .inl ⟨Nat.le_of_not_lt hx, hy⟩
  · exact .inr h

/-- No white space is a digit. -/
theorem isDecimal_of_isBlank {c : Char} (h : isBlank c = true) : isDecimal c = false := by
  have hcode : c.toNat ∈ List.range' 9 5 ++ List.range' 28 5 ++ [133, 160, 5760] ++
    List.range' 8192 11 ++
      [8232, 8233, 8239, 8287, 12288] := by
    simp only [List.mem_append, List.mem_range'_1, List.mem_cons, List.not_mem_nil, or_false]
    replace h : CharSet.holds c.toNat false blank.flips = true := h
    -- one block of the set after the other
    iterate 10 (rcases CharSet.holds_cons_cons h with hblock | h; · omega)
    cases h
  have hnone : ∀ n ∈ List.range' 9 5 ++ List.range' 28 5 ++ [133, 160, 5760] ++
    List.range' 8192 11 ++
      [8232, 8233, 8239, 8287, 12288],
      (zeros.find? fun z => decide (z ≤ n) && decide (n < z + 10)).isSome = false := by
        decide +kernel
  rw [isDecimal, decimalValue?, Option.isSome_map]
  exact hnone _ hcode

theorem isBlank_of_isDecimal {c : Char} (h : isDecimal c = true) : isBlank c = false := by
  cases hblank : isBlank c with
  | false => rfl
  | true =>
    have hdecimal := isDecimal_of_isBlank hblank
    rw [h] at hdecimal
    cases hdecimal

/-- The number that decimal digits write. -/
def numberOf (cs : List Char) : Nat := ofDigits (cs.filterMap decimalValue?)

theorem ne_underscore_of_isDecimal {c : Char} (h : isDecimal c = true) : c ≠ '_' := by
  rintro rfl
  exact absurd h (by decide +kernel)

theorem digitValues_of_isDecimal {cs : List Char} (h : ∀ c ∈ cs, isDecimal c = true) :
    digitValues true cs = some (cs.filterMap decimalValue?) := by
  induction cs with
  | nil => rfl
  | cons c rest ih =>
    obtain ⟨hc, hrest⟩ := List.forall_mem_cons.1 h
    obtain ⟨d, hd⟩ := Option.isSome_iff_exists.1 hc
    rw [digitValues, hd, ih hrest, List.filterMap_cons, hd]
    · rfl
    · exact ne_underscore_of_isDecimal hc

/-- Other characters than decimal digits and underscores write no number. -/
theorem digitValues_eq_none {cs : List Char} {afterDigit : Bool} (h : ∃ c ∈ cs, isDecimal c = false)
    (hcs : '_' ∉ cs) :
    digitValues afterDigit cs = none := by
  induction cs generalizing afterDigit with
  | nil =>
    obtain ⟨c, hc, -⟩ := h
    cases hc
  | cons c rest ih =>
    obtain ⟨hc, hrest⟩ := not_or.1 (List.mem_cons.not.1 hcs)
    rw [digitValues]
    · cases hd : decimalValue? c with
      | none => rfl
      | some d =>
        have hdecimal : isDecimal c = true := by rw [isDecimal, hd]; rfl
        rw [ih ?_ hrest]
        · rfl
        · obtain ⟨c', hc', hother⟩ := h
          rcases List.mem_cons.1 hc' with rfl | hc'
          · rw [hdecimal] at hother
            cases hother
          · exact ⟨c', hc', hother⟩
    · exact Ne.symm hc

theorem readDigits?_of_isDecimal {cs : List Char} (hne : cs ≠ [])
    (h : ∀ c ∈ cs, isDecimal c = true) :
    readDigits? cs = if cs.length ≤ maxDigits then some (numberOf cs) else none := by
  have hvalues : digitValues false cs = some (cs.filterMap decimalValue?) := by
    rw [← digitValues_of_isDecimal h]
    cases cs with
    | nil => exact absurd rfl hne
    | cons c rest =>
      have hc := ne_underscore_of_isDecimal (h c List.mem_cons_self)
      rw [digitValues, digitValues] <;> exact hc
  have hlength : (cs.filterMap decimalValue?).length = cs.length := by
    rw [List.length_filterMap_eq_countP, List.countP_eq_length]
    exact h
  rw [readDigits?, hvalues]
  simp only [Option.bind_eq_bind, Option.bind_some, hlength, numberOf]

/-- The digits of a number are read as that number unless there are too many. -/
theorem readDigits?_toDigits (n : Nat) :
    readDigits? (Nat.toDigits 10 n) = if n < 10 ^ maxDigits then some n else none := by
  have hdigit : ∀ c ∈ Nat.toDigits 10 n, c.isDigit = true :=
    fun c hc => Nat.isDigit_of_mem_toDigits (by decide) (by decide) hc
  have hlength : (Nat.toDigits 10 n).length ≤ maxDigits ↔ n < 10 ^ maxDigits :=
    Nat.length_toDigits_le_iff (by decide) (by decide)
  have hvalues : (Nat.toDigits 10 n).filterMap decimalValue? =
      (Nat.toDigits 10 n).map (·.toNat - 48) := by
    rw [← List.filterMap_eq_map]
    exact List.filterMap_congr fun c hc => decimalValue?_of_isDigit (hdigit c hc)
  have hnumber : numberOf (Nat.toDigits 10 n) = n := by
    rw [numberOf, hvalues, ofDigits, List.foldl_map]
    exact Nat.ofDigitChars_ten_toDigits
  rw [readDigits?_of_isDecimal Nat.toDigits_ne_nil fun c hc => isDecimal_of_isDigit (hdigit c hc)]
  simp only [hlength, hnumber]

/-! ## White space -/

/-- The text is white space alone. -/
def Blank (s : String) : Prop := ∀ c ∈ s.toList, isBlank c = true

theorem dropBlank_append {before core : List Char} (hbefore : ∀ c ∈ before, isBlank c = true)
    (hcore : ∀ c ∈ core.head?, isBlank c = false) : dropBlank (before ++ core) = core := by
  rw [dropBlank, List.dropWhile_append_of_pos hbefore]
  cases core with
  | nil => rfl
  | cons c rest =>
    refine List.dropWhile_cons_of_neg ?_
    simp [hcore c rfl]

/-- Trimming removes the white space around a text, and nothing else. -/
theorem trim_surrounded {before core after : List Char} (hbefore : ∀ c ∈ before, isBlank c = true)
    (hafter : ∀ c ∈ after, isBlank c = true) (hne : core ≠ [])
    (hhead : ∀ c ∈ core.head?, isBlank c = false) (hlast : ∀ c ∈ core.getLast?, isBlank c = false) :
    trim (.ofList (before ++ (core ++ after))) = .ofList core := by
  have hfront : ∀ c ∈ (core ++ after).head?, isBlank c = false := by
    cases core with
    | nil => exact absurd rfl hne
    | cons c rest => exact hhead
  have hback : ∀ c ∈ core.reverse.head?, isBlank c = false := by
    rwa [List.head?_reverse]
  rw [trim, String.toList_ofList, dropBlank_append hbefore hfront, List.reverse_append,
    dropBlank_append (fun c hc => hafter c (List.mem_reverse.1 hc)) hback, List.reverse_reverse]

end Deadwood.Text

namespace Deadwood.Ignore

open Text

/-! ## Written ranges -/

/-- `s` is a range whose ends have the digits `lo` and `hi`, with white space anywhere around
them. -/
def WritesRange (s : String) (lo hi : List Char) : Prop :=
  (lo ≠ [] ∧ ∀ c ∈ lo, isDecimal c = true) ∧ (hi ≠ [] ∧ ∀ c ∈ hi, isDecimal c = true) ∧
    ∃ before left right after : List Char,
      (∀ c ∈ before ++ left ++ right ++ after, isBlank c = true) ∧
      s.toList = before ++ (lo ++ (left ++ '.' :: '.' :: (right ++ (hi ++ after))))

theorem span_isDecimal {digits : List Char} (rest : List Char)
    (hdigits : ∀ c ∈ digits, isDecimal c = true) (hrest : ∀ c ∈ rest.head?, isDecimal c = false) :
    (digits ++ rest).span isDecimal = (digits, rest) := by
  have hstop : rest.takeWhile isDecimal = [] ∧ rest.dropWhile isDecimal = rest := by
    cases rest with
    | nil => exact ⟨rfl, rfl⟩
    | cons c rest =>
      have hc : ¬ isDecimal c = true := by simp [hrest c rfl]
      exact ⟨List.takeWhile_cons_of_neg hc, List.dropWhile_cons_of_neg hc⟩
  rw [List.span_eq_takeWhile_dropWhile, List.takeWhile_append_of_pos hdigits,
    List.dropWhile_append_of_pos hdigits,
    hstop.1, hstop.2, List.append_nil]

/-- What follows the first number of a range is no digit. -/
theorem isDecimal_head {middle rest : List Char} (hmiddle : ∀ c ∈ middle, isBlank c = true) :
    ∀ c ∈ (middle ++ '.' :: rest).head?, isDecimal c = false := by
  intro c hc
  cases middle with
  | nil =>
    obtain rfl : '.' = c := by simpa using hc
    decide +kernel
  | cons d middle =>
    obtain rfl : d = c := by simpa using hc
    exact isDecimal_of_isBlank (hmiddle d List.mem_cons_self)

theorem isBlank_head {digits : List Char} (rest : List Char)
    (hdigits : ∀ c ∈ digits, isDecimal c = true) (hne : digits ≠ []) :
    ∀ c ∈ (digits ++ rest).head?, isBlank c = false := by
  intro c hc
  cases digits with
  | nil => exact absurd rfl hne
  | cons d digits =>
    obtain rfl : d = c := by simpa using hc
    exact isBlank_of_isDecimal (hdigits d List.mem_cons_self)

theorem rangeEnds?_of_writesRange {s : String} {lo hi : List Char} (h : WritesRange s lo hi) :
    rangeEnds? s = some (lo, hi) := by
  obtain ⟨⟨hlo', hlo⟩, ⟨hhi', hhi⟩, before, left, right, after, hblank, hs⟩ := h
  simp only [List.mem_append, or_imp, forall_and] at hblank
  obtain ⟨⟨⟨hbefore, hleft⟩, hright⟩, hafter⟩ := hblank
  have hfront : s.toList.dropWhile isBlank =
      lo ++ (left ++ '.' :: '.' :: (right ++ (hi ++ after))) := by
    rw [hs]
    exact dropBlank_append hbefore (isBlank_head _ hlo hlo')
  have hdots : (left ++ '.' :: '.' :: (right ++ (hi ++ after))).dropWhile isBlank =
      '.' :: '.' :: (right ++ (hi ++ after)) :=
    dropBlank_append hleft (by rintro c ⟨⟩; decide)
  have hback : (right ++ (hi ++ after)).dropWhile isBlank = hi ++ after :=
    dropBlank_append hright (isBlank_head _ hhi hhi')
  have hlast : (hi ++ after).span isDecimal = (hi, after) := by
    refine span_isDecimal after hhi fun c hc =>
      isDecimal_of_isBlank (hafter c (List.mem_of_mem_head? hc))
  have hend : after.dropWhile isBlank = [] := List.dropWhile_eq_nil_iff.2 hafter
  simp only [rangeEnds?, hfront, span_isDecimal _ hlo (isDecimal_head hleft), hdots, hback,
    hlast, hend]
  simp [hlo', hhi']

theorem writesRange_of_rangeEnds? {s : String} {lo hi : List Char}
    (h : rangeEnds? s = some (lo, hi)) :
    WritesRange s lo hi := by
  have hblanks : ∀ cs : List Char, ∀ c ∈ cs.takeWhile isBlank, isBlank c = true :=
    fun cs c => List.mem_takeWhile_imp
  have hdecimals : ∀ cs : List Char, ∀ c ∈ cs.takeWhile isDecimal, isDecimal c = true :=
    fun cs c => List.mem_takeWhile_imp
  simp only [rangeEnds?, List.span_eq_takeWhile_dropWhile] at h
  split at h
  · rename_i rest hdots
    split_ifs at h with hempty
    cases h
    simp only [Bool.or_eq_true, not_or, List.isEmpty_iff, Bool.not_eq_true', Bool.not_eq_false]
      at hempty
    obtain ⟨⟨hlo, hhi⟩, hafter⟩ := hempty
    refine ⟨⟨hlo, hdecimals _⟩, ⟨hhi, hdecimals _⟩, s.toList.takeWhile isBlank,
      ((s.toList.dropWhile isBlank).dropWhile isDecimal).takeWhile isBlank, rest.takeWhile isBlank,
      (rest.dropWhile isBlank).dropWhile isDecimal, ?_, ?_⟩
    · simp only [List.mem_append, or_imp, forall_and]
      exact ⟨⟨⟨hblanks _, hblanks _⟩, hblanks _⟩, List.dropWhile_eq_nil_iff.1 hafter⟩
    · simp only [List.takeWhile_append_dropWhile, ← hdots]
  · cases h

theorem rangeEnds?_eq_some_iff {s : String} {lo hi : List Char} :
    rangeEnds? s = some (lo, hi) ↔ WritesRange s lo hi :=
  ⟨writesRange_of_rangeEnds?, rangeEnds?_of_writesRange⟩

/-! ## The arities of a range -/

/-- Two numbers joined by two dots, with the given texts around the numbers. -/
def writtenRange (before : String) (lo : Nat) (left right : String) (hi : Nat) (after : String) :
    String :=
  before ++ toString lo ++ left ++ ".." ++ right ++ toString hi ++ after

theorem toList_writtenRange (before left right after : String) (lo hi : Nat) :
    (writtenRange before lo left right hi after).toList = before.toList ++
      ((Nat.toDigits 10 lo ++ (left.toList ++ '.' :: '.' :: (right.toList ++ Nat.toDigits 10 hi)))
        ++
        after.toList) := by
  simp [writtenRange, String.toList_append, Nat.toString_eq_repr, Nat.toList_repr]

/-- A written range stands for the arities between its ends; only numbers with too many digits are
refused. -/
theorem compileArity_written {before left right after : String} (hbefore : Blank before)
    (hleft : Blank left) (hright : Blank right) (hafter : Blank after) {lo hi : Nat} (h : lo ≤ hi)
    (given : Setting) :
    compileArity (.str (writtenRange before lo left right hi after)) given =
      if hi < 10 ^ maxDigits then .ok (.between lo hi) else .error .notANumber := by
  have hdecimal : ∀ {n : Nat}, ∀ c ∈ Nat.toDigits 10 n, isDecimal c = true :=
    fun c hc => isDecimal_of_isDigit (Nat.isDigit_of_mem_toDigits (by decide) (by decide) hc)
  generalize hcore : Nat.toDigits 10 lo ++
    (left.toList ++ '.' :: '.' :: (right.toList ++ Nat.toDigits 10 hi)) = core
  have hdot : '.' ∈ core := by
    rw [← hcore]
    simp
  have hends : rangeEnds? (.ofList core) = some (Nat.toDigits 10 lo, Nat.toDigits 10 hi) := by
    refine rangeEnds?_of_writesRange
      ⟨⟨Nat.toDigits_ne_nil, hdecimal⟩, ⟨Nat.toDigits_ne_nil, hdecimal⟩,
      [], left.toList, right.toList, [], ?_, by simp [← hcore]⟩
    simp only [List.nil_append, List.append_nil, List.mem_append, or_imp, forall_and]
    exact ⟨hleft, hright⟩
  have htrim : trim (writtenRange before lo left right hi after) = .ofList core := by
    have hlist := toList_writtenRange before left right after lo hi
    rw [hcore] at hlist
    rw [← String.ofList_toList (s := writtenRange before lo left right hi after), hlist]
    refine trim_surrounded hbefore hafter (List.ne_nil_of_mem hdot) ?_ ?_
    · rw [← hcore]
      exact isBlank_head _ hdecimal Nat.toDigits_ne_nil
    · intro c hc
      have hsplit : core = (Nat.toDigits 10 lo ++ left.toList ++ '.' :: '.' :: right.toList) ++
          Nat.toDigits 10 hi := by
        simp [← hcore]
      rw [hsplit, List.getLast?_append, List.getLast?_eq_some_getLast Nat.toDigits_ne_nil,
        Option.some_or] at hc
      obtain rfl := Option.some_inj.1 hc
      exact isBlank_of_isDecimal (hdecimal _ (List.getLast_mem _))
  have hwildcard : isWildcard (.ofList core) = false := by
    have hne : ∀ s : String, '.' ∉ s.toList → String.ofList core ≠ s := by
      rintro _ hs rfl
      rw [String.toList_ofList] at hs
      exact hs hdot
    simp [isWildcard, hne "_" (by decide), hne "*" (by decide)]
  have hnumber : (core.all Text.isDigit) = false := by
    rw [List.all_eq_false]
    exact ⟨'.', hdot, by decide⟩
  simp only [compileArity, htrim, hwildcard, String.toList_ofList, hnumber, hends,
    readDigits?_toDigits]
  by_cases hhi : hi < 10 ^ maxDigits
  · have hlo : lo < 10 ^ maxDigits := by omega
    simp [hhi, hlo, Nat.not_lt.2 h]
  · by_cases hlo : lo < 10 ^ maxDigits <;> simp [hhi, hlo]

/-- The integers from `lo` to `hi` stand for the arities between; only too many of them are
refused. -/
theorem compileArity_range {lo hi : Nat} (h : lo ≤ hi) (given : Setting) :
    compileArity (.range lo (hi + 1) 1) given =
      if hi + 1 - lo ≤ maxSpan then .ok (.between lo hi) else .error .rangeTooLong := by
  have hspan : spanLength lo (hi + 1) = hi + 1 - lo := by
    unfold spanLength
    omega
  have hpositive : hi + 1 - lo ≠ 0 := by omega
  have hstart : ¬ (lo : Int) < 0 := by omega
  by_cases hlength : hi + 1 - lo ≤ maxSpan
  · simp [compileArity, hspan, hlength, hpositive, hstart]
  · simp [compileArity, hspan, hlength, Nat.lt_of_not_le hlength]

end Deadwood.Ignore
