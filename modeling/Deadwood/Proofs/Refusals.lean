import Deadwood.Proofs.Fieldwise
import Deadwood.Proofs.Traversal

/-!
# Why ignore entries fail

An entry that cannot be compiled is refused for a fault, with a message that shows the entry.
Compiling can also break down, without such a message: at digits that write no number, at more
integers than can be counted, at unknown keys without an order, where the message would have to show
a number with too many digits, and where the reader of patterns breaks down. Nothing is assumed of
this reader, which is `pattern` throughout.

* `TextFlaw`, `ArityFlaw`, `EntryFlaw`: what is wrong with a scope or name, with an arity and with
  an entry, said by the forms that they have and by what the reader of patterns answers. `Flaw`
  keeps faults and breakdowns apart.
* `compileText_eq_error_iff`, `compileArity_eq_error_iff`, `compile_eq_error_iff`: compiling fails
  as these say.
* `refused_iff`: when an entry is compiled or refused, and does not break down.
* `compile_failures` adds what follows for a list of entries; `superscript_breaks_down` is an entry
  that is not refused.
-/

namespace Deadwood.Ignore

open Text

/-- What is wrong with an entry: there is a fault for which it is refused, or compiling it breaks
down. -/
inductive Flaw where
  | fault (f : Fault)
  | breakdown (e : Error)

/-- The error in which a flaw of the entry `given` ends. -/
def Flaw.error (given : Setting) : Flaw → Error
  | .fault f => refuse f given
  | .breakdown e => e

variable {given v : Setting} {what : String} {flaw : Flaw} {e : Error}

/-- If there is a flaw for every failure, and what has a flaw fails in its error, then a failure is
the error of a flaw. -/
theorem eq_error_iff_of_flaws {α : Type} {x : Except Error α} {P : Flaw → Prop}
    (hex : x = .error e → ∃ flaw, P flaw) (hflaw : ∀ flaw, P flaw → x = .error (flaw.error given)) :
    x = .error e ↔ ∃ flaw, P flaw ∧ e = flaw.error given := by
  constructor
  · intro h
    obtain ⟨flaw, hP⟩ := hex h
    exact ⟨flaw, hP, Except.error.inj (h.symm.trans (hflaw flaw hP))⟩
  · rintro ⟨flaw, hP, rfl⟩
    exact hflaw flaw hP

/-- A text with a property that the wildcards do not have is none of them. -/
theorem isWildcard_eq_false {P : String → Prop} {s : String} (hs : P s) (h₁ : ¬ P "_")
    (h₂ : ¬ P "*") :
    isWildcard s = false := by
  have hne : s ≠ "_" ∧ s ≠ "*" := by
    constructor
    · rintro rfl
      exact h₁ hs
    · rintro rfl
      exact h₂ hs
  simp [isWildcard, hne]

/-! ## Scopes and names -/

/-- A setting that can stand for a scope or a name. -/
def IsTextual (v : Setting) : Prop := v = .null ∨ (∃ s, v = .str s) ∨ ∃ p, v = .pattern p

/-- A text is a pattern with this source. -/
def WritesPattern (s source : String) : Prop := s = "re:" ++ source ∨ s = "/" ++ source ++ "/"

variable (pattern : String → Library.Answer String Pattern)

/-- What is wrong with a scope or name. -/
inductive TextFlaw (what : String) : Setting → Flaw → Prop
  | kind {v : Setting} (h : ¬ IsTextual v) : TextFlaw what v (.fault (.notText what))
  | empty {s : String} (h : trim s = "") : TextFlaw what (.str s) (.fault (.emptyText what))
  | refused {s source problem : String} (h : WritesPattern (trim s) source)
    (hsource : pattern source = .error (.refused problem)) :
    TextFlaw what (.str s) (.fault (.badPattern problem))
  | broken {s source problem : String} (h : WritesPattern (trim s) source)
    (hsource : pattern source = .error (.broken problem)) :
    TextFlaw what (.str s) (.breakdown (.patternBroken problem))

variable {pattern}

theorem patternText?_of_writesPattern {s source : String} (h : WritesPattern s source) :
    patternText? s = some source := by
  rcases h with rfl | rfl
  · have hstart : startsWith ("re:" ++ source) "re:" = true := by simp [startsWith]
    simp [patternText?, hstart, Text.drop]
  · have hre : startsWith ("/" ++ source ++ "/") "re:" = false := by
      simp [startsWith, List.isPrefixOf]
    have hstart : startsWith ("/" ++ source ++ "/") "/" = true := by simp [startsWith]
    have hend : endsWith ("/" ++ source ++ "/") "/" = true := by simp [endsWith]
    have hlength : 2 ≤ ("/" ++ source ++ "/").length := by
      simp only [String.length_append]
      exact Nat.add_le_add_right (Nat.le_add_right 1 _) 1
    have hsource : dropEnd (drop ("/" ++ source ++ "/") 1) 1 = source := by
      simp [Text.drop, Text.dropEnd]
    simp only [patternText?, hre, hstart, hend, decide_eq_true hlength, hsource]
    rfl

theorem writesPattern_of_patternText? {s source : String} (h : patternText? s = some source) :
    WritesPattern s source := by
  unfold patternText? at h
  split_ifs at h with hre hslash
  · obtain rfl := Option.some_inj.1 h
    obtain ⟨rest, hrest⟩ := List.isPrefixOf_iff_prefix.1 hre
    refine .inl (String.toList_injective ?_)
    simp [Text.drop, ← hrest]
  · obtain rfl := Option.some_inj.1 h
    simp only [Bool.and_eq_true, decide_eq_true_eq] at hslash
    obtain ⟨⟨hlength, hstart⟩, hend⟩ := hslash
    obtain ⟨behind, hbehind⟩ := List.isPrefixOf_iff_prefix.1 hstart
    obtain ⟨front, hfront⟩ := List.isSuffixOf_iff_suffix.1 hend
    rw [← String.length_toList, ← hfront] at hlength
    -- the two slashes are not the same one
    cases front with
    | nil => exact absurd hlength (by decide)
    | cons c source =>
      have hs : s.toList = '/' :: (source ++ ['/']) := by
        rw [← hfront] at hbehind ⊢
        obtain ⟨rfl, -⟩ : '/' = c ∧ behind = source ++ ['/'] := by simpa using hbehind
        simp
      refine .inr (String.toList_injective ?_)
      simp [Text.drop, Text.dropEnd, hs]

theorem patternText?_eq_some_iff {s source : String} :
    patternText? s = some source ↔ WritesPattern s source :=
  ⟨writesPattern_of_patternText?, patternText?_of_writesPattern⟩

theorem isWildcard_of_writesPattern {s source : String} (h : WritesPattern s source) :
    isWildcard s = false := by
  have hsome : (patternText? s).isSome = true := by rw [patternText?_of_writesPattern h]; rfl
  exact isWildcard_eq_false (P := fun s => (patternText? s).isSome = true)
    hsome (by decide) (by decide)

theorem compileText_of_flaw (h : TextFlaw pattern what v flaw) (given : Setting) :
    compileText pattern v given what = .error (flaw.error given) := by
  cases h with
  | kind h =>
    cases v with
    | null => exact absurd (.inl rfl) h
    | str s => exact absurd (.inr (.inl ⟨s, rfl⟩)) h
    | pattern p => exact absurd (.inr (.inr ⟨p, rfl⟩)) h
    | _ => rfl
  | empty h =>
    have hpattern : patternText? "" = none := by decide
    simp [compileText, h, isWildcard, hpattern, Flaw.error]
  | refused h hsource | broken h hsource =>
    simp only [compileText, isWildcard_of_writesPattern h, patternText?_of_writesPattern h, hsource]
    rfl

theorem exists_textFlaw (h : compileText pattern v given what = .error e) :
    ∃ flaw, TextFlaw pattern what v flaw := by
  cases v with
  | str s =>
    by_cases hwild : isWildcard (trim s) = true
    · simp [compileText, hwild] at h
    cases hpattern : patternText? (trim s) with
    | some source =>
      have hwrites := patternText?_eq_some_iff.1 hpattern
      cases hsource : pattern source with
      | ok p => simp [compileText, hwild, hpattern, hsource] at h
      | error failure =>
        cases failure with
        | refused problem => exact ⟨_, .refused hwrites hsource⟩
        | broken problem => exact ⟨_, .broken hwrites hsource⟩
    | none =>
      by_cases hempty : trim s = ""
      · exact ⟨_, .empty hempty⟩
      · simp [compileText, hwild, hpattern, hempty] at h
  | null | pattern _ => cases h
  | _ => exact ⟨_, .kind (by rintro (h | ⟨_, h⟩ | ⟨_, h⟩) <;> cases h)⟩

/-- A scope or name is refused, or breaks down, as its flaw says. -/
theorem compileText_eq_error_iff :
    compileText pattern v given what = .error e ↔
      ∃ flaw, TextFlaw pattern what v flaw ∧ e = flaw.error given :=
  eq_error_iff_of_flaws exists_textFlaw fun _ hflaw => compileText_of_flaw hflaw given

/-! ## Arities -/

/-- A setting that can stand for an arity. -/
def IsNumeric (v : Setting) : Prop :=
  v = .null ∨ (∃ n, v = .int n) ∨ (∃ start stop step, v = .range start stop step) ∨ ∃ s, v = .str s

/-- A text is made of digits, not all of them decimal ones perhaps. -/
def WritesDigits (s : String) : Prop := s ≠ "" ∧ ∀ c ∈ s.toList, isDigit c = true

/-- What is wrong with an arity. -/
inductive ArityFlaw : Setting → Flaw → Prop
  | kind {v : Setting} (h : ¬ IsNumeric v) : ArityFlaw v (.fault .badArity)
  | negative {n : Int} (h : n < 0) : ArityFlaw (.int n) (.fault .negativeArity)
  | steps {start stop step : Int} (h : step ≠ 1) :
    ArityFlaw (.range start stop step) (.fault .badRange)
  | bounds {start stop : Int} (hlength : stop - start ≤ maxSpan) (h : stop ≤ start ∨ start < 0) :
    ArityFlaw (.range start stop 1) (.fault .badRange)
  | tooLong {start stop : Int} (h : maxSpan < stop - start) :
    ArityFlaw (.range start stop 1) (.breakdown .rangeTooLong)
  /-- The text is made of digits and writes no number: one digit is not decimal, or there are too
  many. -/
  | notANumber {s : String} (hdigits : WritesDigits (trim s))
    (h : (∃ c ∈ (trim s).toList, isDecimal c = false) ∨ maxDigits < (trim s).length) :
    ArityFlaw (.str s) (.breakdown .notANumber)
  | longEnds {s : String} {lo hi : List Char} (hrange : WritesRange (trim s) lo hi)
    (h : maxDigits < lo.length ∨ maxDigits < hi.length) :
      ArityFlaw (.str s) (.breakdown .notANumber)
  | reversed {s : String} {lo hi : List Char} (hrange : WritesRange (trim s) lo hi)
    (hlo : lo.length ≤ maxDigits)
    (hhi : hi.length ≤ maxDigits) (h : numberOf hi < numberOf lo) :
      ArityFlaw (.str s) (.fault .reversedRange)
  | unreadable {s : String} (hwild : isWildcard (trim s) = false)
    (hdigits : ¬ WritesDigits (trim s))
    (hrange : ∀ lo hi, ¬ WritesRange (trim s) lo hi) : ArityFlaw (.str s) (.fault .badArity)

theorem writesDigits_iff {s : String} :
    (!s.isEmpty && s.toList.all isDigit) = true ↔ WritesDigits s := by
  simp only [WritesDigits, Bool.and_eq_true, Bool.not_eq_true', List.all_eq_true]
  refine and_congr_left fun _ => ?_
  rw [← Bool.not_eq_true, String.isEmpty_iff]

theorem isWildcard_of_writesDigits {s : String} (h : WritesDigits s) : isWildcard s = false :=
  isWildcard_eq_false (P := fun s => (!s.isEmpty && s.toList.all isDigit) = true)
    (writesDigits_iff.2 h)
    (by decide +kernel) (by decide +kernel)

/-- Digits write no number if one of them is not decimal or there are too many. -/
theorem readDigits?_eq_none_iff {s : String} (h : WritesDigits s) : readDigits? s.toList = none ↔
    (∃ c ∈ s.toList, isDecimal c = false) ∨ maxDigits < s.length := by
  by_cases hother : ∃ c ∈ s.toList, isDecimal c = false
  · have hunderscore : '_' ∉ s.toList := fun hmem => absurd (h.2 '_' hmem) (by decide +kernel)
    rw [readDigits?, digitValues_eq_none hother hunderscore]
    exact iff_of_true rfl (.inl hother)
  · have hdecimal : ∀ c ∈ s.toList, isDecimal c = true := by simpa using hother
    have hne : s.toList ≠ [] := fun hnil => h.1 (String.toList_eq_nil_iff.1 hnil)
    rw [readDigits?_of_isDecimal hne hdecimal, or_iff_right hother, ← String.length_toList]
    simp

/-- A written range has dots, and so it is no number and no wildcard. -/
theorem WritesRange.dot_mem {s : String} {lo hi : List Char} (h : WritesRange s lo hi) :
    '.' ∈ s.toList := by
  obtain ⟨-, -, before, left, right, after, -, hs⟩ := h
  rw [hs]
  simp

theorem WritesRange.not_writesDigits {s : String} {lo hi : List Char} (h : WritesRange s lo hi) :
    ¬ WritesDigits s :=
  fun hdigits => absurd (hdigits.2 '.' h.dot_mem) (by decide +kernel)

theorem WritesRange.isWildcard_eq {s : String} {lo hi : List Char} (h : WritesRange s lo hi) :
    isWildcard s = false :=
  isWildcard_eq_false (P := fun s => '.' ∈ s.toList) h.dot_mem (by decide) (by decide)

theorem compileArity_writesDigits {s : String} (h : WritesDigits (trim s)) (given : Setting) :
    compileArity (.str s) given =
      (readDigits? (trim s).toList).elim (.error .notANumber) fun n => .ok (.exact n) := by
  simp only [compileArity, isWildcard_of_writesDigits h, if_pos (writesDigits_iff.2 h),
    Bool.false_eq_true, if_false]
  cases readDigits? (trim s).toList <;> rfl

theorem compileArity_writesRange {s : String} {lo hi : List Char} (h : WritesRange (trim s) lo hi)
    (given : Setting) :
    compileArity (.str s) given =
      if lo.length ≤ maxDigits ∧ hi.length ≤ maxDigits then
        if numberOf hi < numberOf lo then .error (refuse .reversedRange given)
        else .ok (.between (numberOf lo) (numberOf hi))
      else .error .notANumber := by
  obtain ⟨⟨hlo, hlo'⟩, ⟨hhi, hhi'⟩, -⟩ := id h
  simp only [compileArity, h.isWildcard_eq, if_neg (writesDigits_iff.not.2 h.not_writesDigits),
    rangeEnds?_of_writesRange h, readDigits?_of_isDecimal hlo hlo',
      readDigits?_of_isDecimal hhi hhi']
  by_cases hlo : lo.length ≤ maxDigits <;> by_cases hhi : hi.length ≤ maxDigits <;> simp [hlo, hhi]

theorem compileArity_of_flaw (h : ArityFlaw v flaw) (given : Setting) :
    compileArity v given = .error (flaw.error given) := by
  cases h with
  | kind h =>
    cases v with
    | null => exact absurd (.inl rfl) h
    | int n => exact absurd (.inr (.inl ⟨n, rfl⟩)) h
    | range start stop step => exact absurd (.inr (.inr (.inl ⟨start, stop, step, rfl⟩))) h
    | str s => exact absurd (.inr (.inr (.inr ⟨s, rfl⟩))) h
    | _ => rfl
  | negative h => simp [compileArity, h, Flaw.error]
  | steps h => simp [compileArity, h, Flaw.error]
  | @bounds start stop hlength h =>
    have hspan : ¬ maxSpan < spanLength start stop := by
      unfold spanLength
      omega
    have hbounds : spanLength start stop = 0 ∨ start < 0 := by
      unfold spanLength
      omega
    simp [compileArity, hspan, hbounds, Flaw.error]
  | @tooLong start stop h =>
    have hspan : maxSpan < spanLength start stop := by
      unfold spanLength
      omega
    simp [compileArity, hspan, Flaw.error]
  | notANumber hdigits h =>
    rw [compileArity_writesDigits hdigits, (readDigits?_eq_none_iff hdigits).2 h]
    rfl
  | longEnds hrange h =>
    rw [compileArity_writesRange hrange, if_neg (by omega)]
    rfl
  | reversed hrange hlo hhi h =>
    rw [compileArity_writesRange hrange, if_pos ⟨hlo, hhi⟩, if_pos h]
    rfl
  | @unreadable s hwild hdigits hrange =>
    have hends : rangeEnds? (trim s) = none := by
      refine Option.eq_none_iff_forall_ne_some.2 fun ends hends => ?_
      exact hrange _ _ (rangeEnds?_eq_some_iff.1 hends)
    simp only [compileArity, hwild, if_neg (writesDigits_iff.not.2 hdigits), hends]
    rfl

theorem exists_arityFlaw (h : compileArity v given = .error e) : ∃ flaw, ArityFlaw v flaw := by
  cases v with
  | str s =>
    -- digits first: a range or a wildcard has a character that is none
    by_cases hdigits : WritesDigits (trim s)
    · cases hread : readDigits? (trim s).toList with
      | some n => simp [compileArity_writesDigits hdigits, hread] at h
      | none => exact ⟨_, .notANumber hdigits ((readDigits?_eq_none_iff hdigits).1 hread)⟩
    by_cases hrange : ∃ lo hi, WritesRange (trim s) lo hi
    · obtain ⟨lo, hi, hrange⟩ := hrange
      by_cases hlength : lo.length ≤ maxDigits ∧ hi.length ≤ maxDigits
      · by_cases hlt : numberOf hi < numberOf lo
        · exact ⟨_, .reversed hrange hlength.1 hlength.2 hlt⟩
        · simp [compileArity_writesRange hrange, hlength, hlt] at h
      · exact ⟨_, .longEnds hrange (by omega)⟩
    cases hwild : isWildcard (trim s) with
    | true => simp [compileArity, hwild] at h
    | false => exact ⟨_, .unreadable hwild hdigits fun lo hi h => hrange ⟨lo, hi, h⟩⟩
  | int n =>
    by_cases hn : n < 0
    · exact ⟨_, .negative hn⟩
    · simp [compileArity, hn] at h
  | range start stop step =>
    by_cases hstep : step = 1
    · subst hstep
      by_cases hlong : maxSpan < stop - start
      · exact ⟨_, .tooLong hlong⟩
      by_cases hbounds : stop ≤ start ∨ start < 0
      · exact ⟨_, .bounds (by omega) hbounds⟩
      -- what is left is accepted
      have hspan : spanLength start stop ≤ maxSpan ∧ spanLength start stop ≠ 0 ∧ ¬ start < 0 := by
        unfold spanLength
        omega
      simp [compileArity, Nat.not_lt.2 hspan.1, hspan.2] at h
    · exact ⟨_, .steps hstep⟩
  | null => cases h
  | _ => exact ⟨_, .kind (by rintro (h | ⟨_, h⟩ | ⟨_, _, _, h⟩ | ⟨_, h⟩) <;> cases h)⟩

/-- An arity is refused, or breaks down, as its flaw says. -/
theorem compileArity_eq_error_iff :
    compileArity v given = .error e ↔ ∃ flaw, ArityFlaw v flaw ∧ e = flaw.error given :=
  eq_error_iff_of_flaws exists_arityFlaw fun _ hflaw => compileArity_of_flaw hflaw given

/-! ## Entries -/

/-- The keys of an object that an entry may not have. -/
def unknownKeys (fields : List (Setting × Setting)) : List Setting :=
  (fields.map (·.1)).filter fun k => !isKnownKey k

/-- A setting of a kind that no entry has. -/
def IsUnsupported (v : Setting) : Prop :=
  v = .null ∨ (∃ b, v = .bool b) ∨ (∃ n, v = .int n) ∨ (∃ x, v = .float x) ∨
    (∃ start stop step, v = .range start stop step) ∨ (∃ kind parts, v = .moment kind parts) ∨
      ∃ f, v = .foreign f

variable (pattern) in
/-- What is wrong with an entry. Of its fields the first with a flaw counts. -/
inductive EntryFlaw : Setting → Flaw → Prop
  | text {s : String} {flaw : Flaw} (h : TextFlaw pattern "scope" (.str s) flaw) :
    EntryFlaw (.str s) flaw
  | scope {given scope name arity : Setting} {flaw : Flaw} (hgiven : Spells given scope name arity)
    (h : TextFlaw pattern "scope" scope flaw) : EntryFlaw given flaw
  | name {given scope name arity : Setting} {flaw : Flaw} (hgiven : Spells given scope name arity)
    (hscope : ∀ f, ¬ TextFlaw pattern "scope" scope f) (h : TextFlaw pattern "name" name flaw) :
      EntryFlaw given flaw
  | arity {given scope name arity : Setting} {flaw : Flaw} (hgiven : Spells given scope name arity)
    (hscope : ∀ f, ¬ TextFlaw pattern "scope" scope f)
      (hname : ∀ f, ¬ TextFlaw pattern "name" name f) (h : ArityFlaw arity flaw) :
    EntryFlaw given flaw
  | length {given : Setting} {items : List Setting}
    (hgiven : given = .list items ∨ given = .tuple items)
    (h : items.length ≠ 2 ∧ items.length ≠ 3) : EntryFlaw given (.fault .badLength)
  | unknownKeys {fields : List (Setting × Setting)} (h : Ignore.unknownKeys fields ≠ [])
    (hordered : (Ignore.unknownKeys fields).Pairwise fun a b => a.before? b ≠ none) :
    EntryFlaw (.dict fields)
      (.fault
        (.unknownKeys ((Ignore.unknownKeys fields).mergeSort fun a b => b.before? a != some true)))
  | unorderedKeys {fields : List (Setting × Setting)} {a b : Setting}
    (h : [a, b].Sublist (Ignore.unknownKeys fields))
    (hab : a.before? b = none) : EntryFlaw (.dict fields) (.breakdown .unorderedKeys)
  | hidden {p : Predicate} (h : p.parameters = none) :
    EntryFlaw (.predicate p) (.fault .hiddenParameters)
  | parameters {p : Predicate} {parameters : List Bool} (hp : p.parameters = some parameters)
    (h : parameters = [] ∨ 2 < parameters.count true) :
      EntryFlaw (.predicate p) (.fault .badParameters)
  | unsupported {v : Setting} (h : IsUnsupported v) : EntryFlaw v (.fault .unsupported)

section Fields

variable {scope name arity : Setting}

theorem not_textFlaw_iff : (∀ f, ¬ TextFlaw pattern what v f) ↔ ∃ field,
      compileText pattern v given what = .ok field := by
  cases h : compileText pattern v given what with
  | ok field =>
    refine iff_of_true (fun f hf => ?_) ⟨field, rfl⟩
    rw [compileText_of_flaw hf given] at h
    cases h
  | error e =>
    obtain ⟨flaw, hflaw, -⟩ := compileText_eq_error_iff.1 h
    exact iff_of_false (fun hnone => hnone flaw hflaw) (by rintro ⟨_, ⟨⟩⟩)

theorem compileFields_eq_error_iff : compileFields pattern scope name arity given = .error e ↔
    compileText pattern scope given "scope" = .error e ∨
    (∃ onScope, compileText pattern scope given "scope" = .ok onScope) ∧
      (compileText pattern name given "name" = .error e ∨
      (∃ onName, compileText pattern name given "name" = .ok onName) ∧ compileArity arity given =
        .error e) := by
  unfold compileFields
  cases compileText pattern scope given "scope" with
  | error e' => simp [bind, Except.bind]
  | ok onScope =>
    cases compileText pattern name given "name" with
    | error e' => simp [bind, Except.bind]
    | ok onName =>
      cases compileArity arity given with
      | error e' => simp [bind, Except.bind]
      | ok onArity => simp [bind, Except.bind, pure, Except.pure]

/-- The first field with a flaw decides how an entry fails. -/
theorem Spells.eq_error_iff (h : Spells given scope name arity) :
    compile pattern given = .error e ↔ ∃ flaw,
    (TextFlaw pattern "scope" scope flaw ∨ (∀ f, ¬ TextFlaw pattern "scope" scope f) ∧
      (TextFlaw pattern "name" name flaw ∨ (∀ f, ¬ TextFlaw pattern "name" name f) ∧
        ArityFlaw arity flaw)) ∧ e = flaw.error given := by
  rw [h.compile_eq, compileFields_eq_error_iff, compileText_eq_error_iff, compileText_eq_error_iff,
    compileArity_eq_error_iff, ← not_textFlaw_iff, ← not_textFlaw_iff]
  constructor
  · rintro (⟨flaw, hflaw, rfl⟩ | ⟨hscope, ⟨flaw, hflaw, rfl⟩ | ⟨hname, flaw, hflaw, rfl⟩⟩)
    · exact ⟨flaw, .inl hflaw, rfl⟩
    · exact ⟨flaw, .inr ⟨hscope, .inl hflaw⟩, rfl⟩
    · exact ⟨flaw, .inr ⟨hscope, .inr ⟨hname, hflaw⟩⟩, rfl⟩
  · rintro ⟨flaw, hflaw | ⟨hscope, hflaw | ⟨hname, hflaw⟩⟩, rfl⟩
    · exact .inl ⟨flaw, hflaw, rfl⟩
    · exact .inr ⟨hscope, .inl ⟨flaw, hflaw, rfl⟩⟩
    · exact .inr ⟨hscope, .inr ⟨hname, flaw, hflaw, rfl⟩⟩

end Fields

theorem compile_dict_of_unknown {fields : List (Setting × Setting)} (h : unknownKeys fields ≠ []) :
    compile pattern (.dict fields) = (sortKeys (unknownKeys fields)).bind fun keys =>
      .error (refuse (.unknownKeys keys) (.dict fields)) := by
  have hne : (unknownKeys fields).isEmpty = false := by simpa using h
  simp only [unknownKeys] at hne
  simp only [compile, hne]
  rfl

theorem compile_of_length {items : List Setting}
    (hgiven : given = .list items ∨ given = .tuple items) (h₂ : items.length ≠ 2)
    (h₃ : items.length ≠ 3) :
    compile pattern given = .error (refuse .badLength given) := by
  rcases items with _ | ⟨_, _ | ⟨_, _ | ⟨_, _ | ⟨_, _⟩⟩⟩⟩
  · rcases hgiven with rfl | rfl <;> rfl
  · rcases hgiven with rfl | rfl <;> rfl
  · exact absurd rfl h₂
  · exact absurd rfl h₃
  · rcases hgiven with rfl | rfl <;> rfl

theorem compile_of_flaw (h : EntryFlaw pattern given flaw) :
    compile pattern given = .error (flaw.error given) := by
  cases h with
  | text h => simp only [compile, compileText_of_flaw h, Except.map]
  | scope hgiven h => exact hgiven.eq_error_iff.2 ⟨flaw, .inl h, rfl⟩
  | name hgiven hscope h => exact hgiven.eq_error_iff.2 ⟨flaw, .inr ⟨hscope, .inl h⟩, rfl⟩
  | arity hgiven hscope hname h =>
    exact hgiven.eq_error_iff.2 ⟨flaw, .inr ⟨hscope, .inr ⟨hname, h⟩⟩, rfl⟩
  | length hgiven h => exact compile_of_length hgiven h.1 h.2
  | unknownKeys h hordered =>
    simp only [Option.ne_none_iff_isSome] at hordered
    rw [compile_dict_of_unknown h, sortKeys, if_pos hordered]
    rfl
  | @unorderedKeys fields a b h hab =>
    have hordered : ¬ (unknownKeys fields).Pairwise fun a b => (a.before? b).isSome = true := by
      intro hordered
      have := List.pairwise_iff_forall_sublist.1 hordered h
      simp [hab] at this
    rw [compile_dict_of_unknown (List.ne_nil_of_mem (h.subset List.mem_cons_self)), sortKeys,
      if_neg hordered]
    rfl
  | hidden h => simp [compile, Predicate.arguments, h, Except.map, Flaw.error]
  | @parameters p parameters hp h =>
    rcases h with rfl | h
    · simp [compile, Predicate.arguments, hp, Except.map, Flaw.error]
    · have hcount : ¬ (parameters.count true = 1 ∨ parameters.count true = 2) ∧
        parameters.count true ≠ 0 := by omega
      simp [compile, Predicate.arguments, hp, hcount, Except.map, Flaw.error]
  | unsupported h =>
    rcases h with rfl | ⟨_, rfl⟩ | ⟨_, rfl⟩ | ⟨_, rfl⟩ | ⟨_, _, _, rfl⟩ | ⟨_, _, rfl⟩ | ⟨_, rfl⟩ <;>
      rfl

theorem Spells.exists_flaw {scope name arity : Setting} (hgiven : Spells given scope name arity)
    (h : compile pattern given = .error e) : ∃ flaw, EntryFlaw pattern given flaw := by
  obtain ⟨flaw, hflaw | ⟨hscope, hflaw | ⟨hname, hflaw⟩⟩, -⟩ := hgiven.eq_error_iff.1 h
  · exact ⟨flaw, .scope hgiven hflaw⟩
  · exact ⟨flaw, .name hgiven hscope hflaw⟩
  · exact ⟨flaw, .arity hgiven hscope hname hflaw⟩

theorem exists_itemsFlaw {items : List Setting}
    (hgiven : given = .list items ∨ given = .tuple items) (h : compile pattern given = .error e) :
    ∃ flaw, EntryFlaw pattern given flaw := by
  by_cases hlength : items.length ≠ 2 ∧ items.length ≠ 3
  · exact ⟨_, .length hgiven hlength⟩
  rcases not_and_or.1 hlength with h₂ | h₃
  · obtain ⟨scope, name, rfl⟩ := List.length_eq_two.1 (not_not.1 h₂)
    rcases hgiven with rfl | rfl
    · exact (Spells.list₂ scope name).exists_flaw h
    · exact (Spells.tuple₂ scope name).exists_flaw h
  · obtain ⟨scope, name, arity, rfl⟩ := List.length_eq_three.1 (not_not.1 h₃)
    rcases hgiven with rfl | rfl
    · exact (Spells.list₃ scope name arity).exists_flaw h
    · exact (Spells.tuple₃ scope name arity).exists_flaw h

theorem exists_dictFlaw {fields : List (Setting × Setting)}
    (h : compile pattern (.dict fields) = .error e) :
    ∃ flaw, EntryFlaw pattern (.dict fields) flaw := by
  by_cases hknown : unknownKeys fields = []
  · have hspells : ∀ f ∈ fields, isKnownKey f.1 = true := by
      simpa [unknownKeys, List.filter_eq_nil_iff] using hknown
    exact (Spells.dict fields hspells).exists_flaw h
  by_cases hordered : (unknownKeys fields).Pairwise fun a b => a.before? b ≠ none
  · exact ⟨_, .unknownKeys hknown hordered⟩
  · rw [List.pairwise_iff_forall_sublist] at hordered
    push Not at hordered
    obtain ⟨a, b, hsublist, hab⟩ := hordered
    exact ⟨_, .unorderedKeys hsublist hab⟩

theorem exists_predicateFlaw {p : Predicate} (h : compile pattern (.predicate p) = .error e) :
    ∃ flaw, EntryFlaw pattern (.predicate p) flaw := by
  cases hp : p.parameters with
  | none => exact ⟨_, .hidden hp⟩
  | some parameters =>
    by_cases hflaw : parameters = [] ∨ 2 < parameters.count true
    · exact ⟨_, .parameters hp hflaw⟩
    · obtain ⟨hne, hcount⟩ := not_or.1 hflaw
      have hcases : parameters.count true = 0 ∨ parameters.count true = 1 ∨ parameters.count true =
        2 := by omega
      rcases hcases with hcount | hcount | hcount <;>
        simp [compile, Predicate.arguments, hp, hcount, hne, Except.map] at h

theorem exists_entryFlaw (h : compile pattern given = .error e) :
    ∃ flaw, EntryFlaw pattern given flaw := by
  cases given with
  | str s =>
    cases htext : compileText pattern (.str s) (.str s) "scope" with
    | ok field => simp [compile, htext, Except.map] at h
    | error e' =>
      obtain ⟨flaw, hflaw⟩ := exists_textFlaw htext
      exact ⟨flaw, .text hflaw⟩
  | symbol scope name arity => exact (Spells.symbol scope name arity).exists_flaw h
  | dict fields => exact exists_dictFlaw h
  | list items => exact exists_itemsFlaw (.inl rfl) h
  | tuple items => exact exists_itemsFlaw (.inr rfl) h
  | predicate p => exact exists_predicateFlaw h
  | pattern _ | spec _ => cases h
  | null => exact ⟨_, .unsupported (.inl rfl)⟩
  | bool b => exact ⟨_, .unsupported (.inr (.inl ⟨b, rfl⟩))⟩
  | int n => exact ⟨_, .unsupported (.inr (.inr (.inl ⟨n, rfl⟩)))⟩
  | float x => exact ⟨_, .unsupported (.inr (.inr (.inr (.inl ⟨x, rfl⟩))))⟩
  | range start stop step =>
    exact ⟨_, .unsupported (.inr (.inr (.inr (.inr (.inl ⟨start, stop, step, rfl⟩)))))⟩
  | moment kind parts =>
    exact ⟨_, .unsupported (.inr (.inr (.inr (.inr (.inr (.inl ⟨kind, parts, rfl⟩))))))⟩
  | foreign f => exact ⟨_, .unsupported (.inr (.inr (.inr (.inr (.inr (.inr ⟨f, rfl⟩))))))⟩

/-- An entry is refused, or breaks down, as its flaw says. -/
theorem compile_eq_error_iff : compile pattern given = .error e ↔
      ∃ flaw, EntryFlaw pattern given flaw ∧ e = flaw.error given :=
  eq_error_iff_of_flaws exists_entryFlaw fun _ hflaw => compile_of_flaw hflaw

/-! ## Refusals -/

/-- What breaks down is not refused. -/
theorem EntryFlaw.ne_invalid (h : EntryFlaw pattern given (.breakdown e)) (fault : Fault)
    (shown : Setting) :
    e ≠ .invalid fault shown := by
  have htext : ∀ {what v}, TextFlaw pattern what v (.breakdown e) → e ≠ .invalid fault shown := by
    rintro what v (_ | _)
    nofun
  cases h with
  | text h | scope _ h | name _ _ h => exact htext h
  | arity _ _ _ h => cases h <;> nofun
  | unorderedKeys => nofun

/-- An entry is compiled or refused unless compiling it breaks down or the message cannot show
it. -/
theorem refused_iff :
    ((∃ spec, compile pattern given = .ok spec) ∨ ∃ fault, compile pattern given =
      .error (.invalid fault given)) ↔
      (∀ e, ¬ EntryFlaw pattern given (.breakdown e)) ∧
        (given.isShown = true ∨ ∀ fault, ¬ EntryFlaw pattern given (.fault fault)) := by
  constructor
  · intro h
    refine ⟨fun e hflaw => ?_, or_iff_not_imp_left.2 fun hshown fault hflaw => ?_⟩
    · rcases h with ⟨spec, h⟩ | ⟨fault, h⟩
      · rw [compile_of_flaw hflaw] at h
        cases h
      · rw [compile_of_flaw hflaw] at h
        exact hflaw.ne_invalid fault given (Except.error.inj h)
    · rcases h with ⟨spec, h⟩ | ⟨fault', h⟩
      · rw [compile_of_flaw hflaw] at h
        cases h
      · rw [compile_of_flaw hflaw] at h
        simp [Flaw.error, refuse, hshown] at h
  · rintro ⟨hbreakdown, hshown⟩
    cases h : compile pattern given with
    | ok spec => exact .inl ⟨spec, rfl⟩
    | error e =>
      obtain ⟨flaw, hflaw, rfl⟩ := compile_eq_error_iff.1 h
      cases flaw with
      | breakdown e => exact absurd hflaw (hbreakdown e)
      | fault fault =>
        have hgiven : given.isShown = true := hshown.resolve_right fun hnone => hnone fault hflaw
        exact .inr ⟨fault, by rw [Flaw.error, refuse, if_pos hgiven]⟩

theorem compileAll_eq_mapM (raws : List Setting) :
    compileAll pattern raws = raws.mapM (compile pattern) := by
  induction raws with
  | nil => rfl
  | cons raw rest ih =>
    rw [compileAll, List.mapM_cons, ih]

variable (pattern) in
/-- **How compiling fails.** An entry that is not compiled has a flaw, and the error is that of the
flaw. It is refused, with a message that shows it, unless compiling breaks down at digits that write
no number, too many integers, keys without an order or a pattern on which the reader of patterns
breaks down, or the message would show a number with too many digits. A list of entries is compiled
if each of them is, and else fails as its first entry does that fails. -/
theorem compile_failures (given : Setting) (raws : List Setting) :
    (∀ e, compile pattern given = .error e ↔
      ∃ flaw, EntryFlaw pattern given flaw ∧ e = flaw.error given) ∧
    (((∃ spec, compile pattern given = .ok spec) ∨
        ∃ fault, compile pattern given = .error (.invalid fault given)) ↔
      (∀ e, ¬ EntryFlaw pattern given (.breakdown e)) ∧
        (given.isShown = true ∨ ∀ fault, ¬ EntryFlaw pattern given (.fault fault))) ∧
    (∀ specs, compileAll pattern raws = .ok specs ↔
      List.Forall₂ (fun raw spec => compile pattern raw = .ok spec) raws specs) ∧
    ∀ e, compileAll pattern raws = .error e ↔
      ∃ before raw behind, raws = before ++ raw :: behind ∧
        (∀ b ∈ before, ∃ spec, compile pattern b = .ok spec) ∧ compile pattern raw = .error e := by
  refine ⟨fun e => compile_eq_error_iff, refused_iff, fun specs => ?_, fun e => ?_⟩
  · rw [compileAll_eq_mapM, mapM_eq_ok_iff]
  · rw [compileAll_eq_mapM, mapM_eq_error_iff]

/-- An entry whose arity is a digit, but no decimal one. -/
def superscript : Setting := .list [.str "a", .str "b", .str "²"]

/-- Such an entry breaks down, and with it the list of entries that it is in; it is not refused. -/
theorem superscript_breaks_down :
    compile Library.readPattern superscript = .error .notANumber ∧
    (¬ ∃ fault, compile Library.readPattern superscript = .error (.invalid fault superscript)) ∧
    compileAll Library.readPattern [.str "m", superscript, .null] = .error .notANumber := by
  obtain ⟨herror, hrefused, -, hall⟩ :=
    compile_failures Library.readPattern superscript [.str "m", superscript, .null]
  have hdigits : WritesDigits (trim "²") := writesDigits_iff.1 (by decide +kernel)
  have hexact {what s : String} (h : compileText Library.readPattern (.str s) .null what =
    .ok (.exact s)) :
      ∀ f, ¬ TextFlaw Library.readPattern what (.str s) f := not_textFlaw_iff.2 ⟨_, h⟩
  have hflaw : EntryFlaw Library.readPattern superscript (.breakdown .notANumber) :=
    .arity (.list₃ _ _ _) (hexact rfl) (hexact rfl)
      (.notANumber hdigits (.inl ⟨'²', by decide +kernel, by decide +kernel⟩))
  have hcompile := (herror _).2 ⟨_, hflaw, rfl⟩
  refine ⟨hcompile, fun hfault => (hrefused.1 (.inr hfault)).1 _ hflaw, ?_⟩
  refine (hall _).2 ⟨[.str "m"], superscript, [.null], rfl, ?_, hcompile⟩
  intro raw hraw
  obtain rfl := List.mem_singleton.1 hraw
  exact ⟨.scope (.exact "m"), rfl⟩

end Deadwood.Ignore
