import Mathlib.Data.List.TakeDrop
import Mathlib.Tactic.IntervalCases
import Mathlib.Tactic.SplitIfs
import Deadwood.Proofs.Table
import Deadwood.Value.Printer
import Deadwood.Value.Reader

/-!
# Writing a value and reading it back

A value is read back from the text that `toJsonLines` writes. Numbers that are no integers are left
out, and so are integers with more digits than the reader takes and objects that have a name twice.

* `Storable v`: the value is of this kind.
* `ReadsBack v`: a reader with enough fuel finds `v` in front of anything that cannot go on with it.
  Each form of value has its lemma, and an induction on `Storable` puts them together.
* `ofJson_toJsonLines`: the whole document is read back, and `Text.ofBytes?_of_toBytes?` the bytes
  of a text.
* `distinct_of_ofJson`: no object of a document that was read has a name twice.
-/

namespace Deadwood

/-! ## Bytes -/

/-- Listing the bytes from an index on, with those before it listed already, lists them all. -/
theorem toList_loop_of_take {bytes : ByteArray} {i : Nat} {r : List UInt8}
    (h : r.reverse = bytes.data.toList.take i) :
    ByteArray.toList.loop bytes i r = bytes.data.toList := by
  fun_induction ByteArray.toList.loop bytes i r with
  | case1 i r hi ih =>
    have hlist : i < bytes.data.toList.length := hi
    have hget : bytes.get! i = bytes.data.toList.get ⟨i, hlist⟩ := getElem!_pos bytes.data i hi
    apply ih
    rw [List.reverse_cons, h, hget, List.get_eq_getElem, List.take_append_getElem]
  | case2 i r hi =>
    rw [h]
    exact List.take_of_length_le (Nat.le_of_not_lt hi)

/-- The bytes of a text are read as that text. -/
theorem fromUTF8?_toList (s : String) : String.fromUTF8? ⟨s.toUTF8.toList.toArray⟩ = some s := by
  have hbytes : (⟨s.toUTF8.toList.toArray⟩ : ByteArray) = s.toByteArray := by
    rw [String.toUTF8_eq_toByteArray, ByteArray.toList, toList_loop_of_take (by simp)]
  rw [hbytes, String.fromUTF8?, dif_pos s.isValidUTF8]
  rfl

/-- The bytes that encode a text are read as that text. -/
theorem Text.ofBytes?_of_toBytes? {s : String} {bytes : List UInt8} (h : toBytes? s = some bytes) :
    ofBytes? bytes = some s := by
  obtain ⟨cs, hcs, rfl⟩ := Option.map_eq_some_iff.1 h
  rw [ofBytes?, fromUTF8?_toList, Option.map_some, String.toList_ofList,
    flatMap_ofChar_of_characters? hcs, String.ofList_toList]

namespace Value

/-! ## Texts -/

theorem codeUnit?_append {cs ds : List Char} {n : Nat} (h : codeUnit? cs = some (n, ds))
    (more : List Char) :
    codeUnit? (cs ++ more) = some (n, ds ++ more) := by
  match cs, h with
  | a :: b :: c :: d :: rest, h =>
    simp only [codeUnit?, Option.bind_eq_bind, Option.bind_eq_some_iff, Option.pure_def,
      Option.some_inj, List.cons_append] at h ⊢
    obtain ⟨a', ha, b', hb, c', hc, d', hd, h⟩ := h
    obtain ⟨rfl, rfl⟩ := Prod.mk.inj h
    exact ⟨a', ha, b', hb, c', hc, d', hd, rfl⟩

theorem codeUnit?_hex : ∀ n < 32, codeUnit? (Text.hex 4 n) = some (n, []) := by decide

theorem readText_plain {c : Char} {fuel : Nat} {more : List Char} (hq : c ≠ '"') (hb : c ≠ '\\')
    (h : 32 ≤ c.toNat) :
    readText (fuel + 1) (c :: more) = (readText fuel more).map fun p => (c :: p.1, p.2) := by
  rw [readText]
  · cases readText fuel more <;> simp [h, hb, guard]
  · exact hq
  · rintro rest rfl
    exact absurd rfl hb
  · rintro x rest rfl
    exact absurd rfl hb

/-- One escaped character is read as that character. -/
theorem readText_jsonChar (c : Char) (fuel : Nat) (more : List Char) :
    readText (fuel + 1) (jsonChar c ++ more) = (readText fuel more).map fun p =>
      (c :: p.1, p.2) := by
  have code : ∀ n, c.toNat = n → c = Char.ofNat n := fun n h => by rw [← h, Char.ofNat_toNat]
  unfold jsonChar
  split_ifs with hq hb hn hr ht h8 h12 h32
  · subst hq
    cases h : readText fuel more <;> simp [readText, escape?, h]
  · subst hb
    cases h : readText fuel more <;> simp [readText, escape?, h]
  · subst hn
    cases h : readText fuel more <;> simp [readText, escape?, h]
  · subst hr
    cases h : readText fuel more <;> simp [readText, escape?, h]
  · subst ht
    cases h : readText fuel more <;> simp [readText, escape?, h]
  · rw [code 8 h8]
    cases h : readText fuel more <;> simp [readText, escape?, h]
  · rw [code 12 h12]
    cases h : readText fuel more <;> simp [readText, escape?, h]
  · have hunit := codeUnit?_append (codeUnit?_hex c.toNat h32) more
    have hmark : c ≠ Text.mark := by
      rintro rfl
      exact absurd h32 (by decide)
    have hchar : Text.ofPoint c.toNat = [c] := by
      rw [Text.ofPoint, if_neg (by simp; omega), Char.ofNat_toNat, Text.ofChar, if_neg hmark]
    have hlow : ¬ (55296 ≤ c.toNat ∧ c.toNat ≤ 56319) := by omega
    cases h : readText fuel more <;> simp [readText, hunit, hlow, hchar, h]
  · exact readText_plain hq hb (by omega)

theorem length_jsonChar_pos (c : Char) : 0 < (jsonChar c).length := by
  unfold jsonChar
  split_ifs <;> simp

/-- The escaped characters of a text are read as that text. -/
theorem readText_escaped (s rest : List Char) (fuel : Nat)
    (h : (s.flatMap jsonChar).length < fuel) :
    readText fuel (s.flatMap jsonChar ++ '"' :: rest) = some (s, rest) := by
  induction s generalizing fuel with
  | nil =>
    obtain ⟨k, rfl⟩ : ∃ k, fuel = k + 1 := ⟨fuel - 1, by simp at h; omega⟩
    rfl
  | cons c s ih =>
    rw [List.flatMap_cons, List.length_append] at h
    have hc := length_jsonChar_pos c
    obtain ⟨k, rfl⟩ : ∃ k, fuel = k + 1 := ⟨fuel - 1, by omega⟩
    rw [List.flatMap_cons, List.append_assoc, readText_jsonChar, ih k (by omega)]
    rfl

theorem toList_jsonText (s : String) :
    (jsonText s).toList = '"' :: (s.toList.flatMap jsonChar ++ ['"']) := by
  simp [jsonText]

/-! ## Integers -/

/-- What may follow a value: the end, or the start of a new line or item. -/
def Closed (rest : List Char) : Prop := rest = [] ∨ ∃ c r, rest = c :: r ∧ (c = ',' ∨ c = '\n')

theorem Closed.comma (r : List Char) : Closed (',' :: r) := .inr ⟨_, r, rfl, .inl rfl⟩

theorem Closed.newline (level : Nat) (r : List Char) : Closed ((newline level).toList ++ r) :=
  .inr ⟨'\n', List.replicate (2 * level) ' ' ++ r, by simp [Value.newline], .inr rfl⟩

theorem digitsValue_toDigits (n : Nat) : digitsValue (Nat.toDigits 10 n) = n := by
  rw [digitsValue, Text.ofDigits, List.foldl_map]
  exact Nat.ofDigitChars_ten_toDigits

theorem not_mem_toDigits {c : Char} (hc : c.isDigit = false) (n : Nat) : c ∉ Nat.toDigits 10 n := by
  intro h
  rw [Nat.isDigit_of_mem_toDigits (by decide) (by decide) h] at hc
  cases hc

theorem spanDigits_toDigits (n : Nat) {rest : List Char} (h : Closed rest) :
    spanDigits (Nat.toDigits 10 n ++ rest) = (Nat.toDigits 10 n, rest) := by
  have hall : ∀ c ∈ Nat.toDigits 10 n, ('0' ≤ c && c ≤ '9') = true := by
    intro c hc
    have := Nat.isDigit_of_mem_toDigits (by decide) (by decide) hc
    simpa [Char.isDigit, Char.le_def] using this
  have hend : rest.takeWhile (fun c => '0' ≤ c && c ≤ '9') = [] ∧
      rest.dropWhile (fun c => '0' ≤ c && c ≤ '9') = rest := by
    rcases h with rfl | ⟨c, r, rfl, rfl | rfl⟩
    · exact ⟨rfl, rfl⟩
    · exact ⟨by simp, by simp⟩
    · exact ⟨by simp, by simp⟩
  rw [spanDigits, List.span_eq_takeWhile_dropWhile, List.takeWhile_append_of_pos hall,
    List.dropWhile_append_of_pos hall, hend.1, hend.2, List.append_nil]

/-- The digits of a number that is not zero do not start with a zero. -/
theorem toDigits_eq_cons {n : Nat} (h : 0 < n) : ∃ d ds, Nat.toDigits 10 n = d :: ds ∧ d ≠ '0' := by
  induction n using Nat.strongRecOn with
  | ind n ih =>
    by_cases hn : n < 10
    · refine ⟨_, [], Nat.toDigits_of_lt_base hn, ?_⟩
      interval_cases n <;> decide
    · obtain ⟨d, ds, hd, hne⟩ := ih (n / 10) (by omega) (by omega)
      refine ⟨d, ds ++ [Nat.digitChar (n % 10)], ?_, hne⟩
      rw [Nat.toDigits_of_base_le (by decide) (by omega), hd]
      rfl

theorem readExponent_of_closed {rest : List Char} (h : Closed rest) : readExponent rest = none := by
  rcases h with rfl | ⟨c, r, rfl, rfl | rfl⟩ <;> rfl

/-- The digits of a number before its point; a zero stands alone. -/
def whole? (cs : List Char) : Option (List Char × List Char) :=
  match cs with
  | '0' :: rest => some (['0'], rest)
  | _ => match spanDigits cs with
    | ([], _) => none
    | found => some found

/-- The digits after a point, if they stand at the front. -/
def fraction (rest : List Char) : List Char × List Char :=
  match rest with
  | '.' :: r => match spanDigits r with
    | ([], _) => ([], rest)
    | found => found
  | _ => ([], rest)

theorem whole?_toDigits (n : Nat) {rest : List Char} (h : Closed rest) :
    whole? (Nat.toDigits 10 n ++ rest) = some (Nat.toDigits 10 n, rest) := by
  by_cases h0 : n = 0
  · subst h0
    rfl
  · obtain ⟨d, ds, hd, hne⟩ := toDigits_eq_cons (Nat.pos_of_ne_zero h0)
    have hspan := spanDigits_toDigits n h
    rw [hd, List.cons_append] at hspan ⊢
    rw [whole?, hspan]
    intro r hr
    exact hne (List.cons.inj hr).1

theorem fraction_of_closed {rest : List Char} (h : Closed rest) : fraction rest = ([], rest) := by
  rcases h with rfl | ⟨c, r, rfl, rfl | rfl⟩ <;> rfl

theorem readNumber_eq (negative : Bool) (cs : List Char) : readNumber negative cs =
    match whole? cs with
    | none => .error .malformed
    | some (whole, rest) =>
      match readExponent (fraction rest).2 with
      | some (e, behind) =>
        .ok (.float (.ofDecimal negative (digitsValue (whole ++ (fraction rest).1))
          (e - (fraction rest).1.length)), behind)
      | none =>
        if (fraction rest).1.isEmpty then
          if whole.length ≤ Text.maxDigits then
            .ok (.int (if negative then -(digitsValue whole : Int) else digitsValue whole),
              (fraction rest).2)
          else .error .tooLong
        else
          .ok (.float (.ofDecimal negative (digitsValue (whole ++ (fraction rest).1))
            (-(fraction rest).1.length)), (fraction rest).2) :=
  rfl

/-- The digits of a number are read as that number. -/
theorem readNumber_toDigits (negative : Bool) {n : Nat} (hn : n < 10 ^ Text.maxDigits)
    {rest : List Char} (h : Closed rest) :
    readNumber negative (Nat.toDigits 10 n ++ rest) =
      .ok (.int (if negative then -(n : Int) else n), rest) := by
  have hl : (Nat.toDigits 10 n).length ≤ Text.maxDigits :=
    (Nat.length_toDigits_le_iff (by decide) (by decide)).2 hn
  simp only [readNumber_eq, whole?_toDigits n h, fraction_of_closed h,
    readExponent_of_closed h, List.isEmpty_nil, if_true, if_pos hl, digitsValue_toDigits]

theorem readAtom_digit {d : Char} (hd : d.isDigit = true) (cs : List Char) :
    readAtom (d :: cs) = readNumber false (d :: cs) := by
  have hno : ∀ c ∈ ['n', 't', 'f', 'N', 'I', '-'], c.isDigit = false := by simp
  have hne : ∀ c ∈ ['n', 't', 'f', 'N', 'I', '-'], c ≠ d := by
    rintro c hc rfl
    rw [hno c hc] at hd
    cases hd
  simp only [List.forall_mem_cons] at hne
  obtain ⟨h1, h2, h3, h4, h5, h6, -⟩ := hne
  have hword : readWord? (d :: cs) = none := by
    simp [readWord?, afterWord?, List.isPrefixOf, h1, h2, h3, h4, h5, h6]
  rw [readAtom, hword]
  exact fun rest heq => h6 (List.cons.inj heq).1.symm

theorem readAtom_minus {d : Char} (hd : d.isDigit = true) (cs : List Char) :
    readAtom ('-' :: d :: cs) = readNumber true (d :: cs) := by
  have hne : 'I' ≠ d := by
    rintro rfl
    revert hd
    decide
  have hword : readWord? ('-' :: d :: cs) = none := by
    simp [readWord?, afterWord?, List.isPrefixOf, hne]
  rw [readAtom, hword]

/-- The digits of an integer, after its sign if it has one. -/
theorem toList_toString (n : Int) : (toString n).toList =
    if 0 ≤ n then Nat.toDigits 10 n.natAbs else '-' :: Nat.toDigits 10 n.natAbs := by
  rw [Int.toString_eq_repr, Int.repr_eq_if]
  split_ifs with h
  · rw [Nat.toList_repr, show n.toNat = n.natAbs by omega]
  · rw [String.toList_append, Nat.toList_repr, show (-n).toNat = n.natAbs by omega]
    rfl

theorem toDigits_starts (n : Nat) : ∃ d ds, Nat.toDigits 10 n = d :: ds ∧ d.isDigit = true := by
  cases hd : Nat.toDigits 10 n with
  | nil => exact absurd hd Nat.toDigits_ne_nil
  | cons d ds =>
    exact ⟨d, ds, rfl, Nat.isDigit_of_mem_toDigits
      (by decide) (by decide) (hd ▸ List.mem_cons_self)⟩

theorem readAtom_int {n : Int} (hn : n.natAbs < 10 ^ Text.maxDigits) {rest : List Char}
    (h : Closed rest) : readAtom ((toString n).toList ++ rest) = .ok (.int n, rest) := by
  obtain ⟨d, ds, hd, hdigit⟩ := toDigits_starts n.natAbs
  have hread := fun negative => readNumber_toDigits negative hn h
  rw [toList_toString]
  split_ifs with hsign <;> simp only [hd, List.cons_append] at hread ⊢
  · rw [readAtom_digit hdigit, hread, if_neg (by decide),
      show ((n.natAbs : Nat) : Int) = n by omega]
  · rw [readAtom_minus hdigit, hread, if_pos rfl, show -((n.natAbs : Nat) : Int) = n by omega]

/-! ## Space -/

theorem skipSpace_newline (level : Nat) (cs : List Char) :
    skipSpace ((newline level).toList ++ cs) = skipSpace cs := by
  have hall : ∀ c ∈ (newline level).toList,
      (c = ' ' || c = '\t' || c = '\n' || c = '\r') = true := by
    intro c hc
    simp only [newline, String.toList_ofList, List.mem_cons, List.mem_replicate] at hc
    rcases hc with rfl | ⟨-, rfl⟩ <;> rfl
  exact List.dropWhile_append_of_pos hall

theorem readValue_of_skipSpace {cs ds : List Char} (h : skipSpace cs = skipSpace ds) (fuel : Nat) :
    readValue fuel cs = readValue fuel ds := by
  cases fuel with
  | zero => rfl
  | succ k => simp only [readValue, h]

/-- The first character of a value: neither space nor a closing mark. -/
def Opens (c : Char) : Prop := c ∉ [' ', '\t', '\n', '\r', ']', '\x7d']

instance (c : Char) : Decidable (Opens c) := inferInstanceAs (Decidable (_ ∉ _))

theorem skipSpace_of_opens {c : Char} (h : Opens c) (cs : List Char) :
    skipSpace (c :: cs) = c :: cs := by
  simp only [Opens, List.mem_cons, not_or] at h
  obtain ⟨h1, h2, h3, h4, -⟩ := h
  simp [skipSpace, h1, h2, h3, h4]

/-! ## Values -/

/-- What the reader finds at the front of a text that the printer wrote: the value, if it has enough
fuel. -/
structure ReadsBack (v : Value) : Prop where
  opens : ∀ level, ∃ c cs, (v.toJsonLines level).toList = c :: cs ∧ Opens c
  reads : ∀ level fuel rest, Closed rest → (v.toJsonLines level).toList.length < fuel →
    readValue fuel ((v.toJsonLines level).toList ++ rest) = .ok (v, rest)

theorem readValue_atom {c : Char} (h : Opens c) (hlist : c ≠ '[') (hdict : c ≠ '\x7b')
    (htext : c ≠ '"')
    (fuel : Nat) (cs : List Char) : readValue (fuel + 1) (c :: cs) = readAtom (c :: cs) := by
  rw [readValue, skipSpace_of_opens h]
  split
  · rename_i heq
    exact absurd (List.cons.inj heq).1 hlist
  · rename_i heq
    exact absurd (List.cons.inj heq).1 hdict
  · rename_i heq
    exact absurd (List.cons.inj heq).1 htext
  · rfl

theorem exists_fuel {n fuel : Nat} (h : n < fuel) : ∃ k, fuel = k + 1 ∧ n ≤ k :=
  ⟨fuel - 1, by omega⟩

/-- A value that stands for itself is read back if its text is taken for no list, object or text. -/
theorem readsBack_atom {v : Value} (c : Char) (cs : List Char)
    (hprint : ∀ level, (v.toJsonLines level).toList = c :: cs)
    (hopens : Opens c ∧ c ≠ '[' ∧ c ≠ '\x7b' ∧ c ≠ '"')
    (hread : ∀ rest, Closed rest → readAtom (c :: cs ++ rest) = .ok (v, rest)) : ReadsBack v where
  opens level := ⟨c, cs, hprint level, hopens.1⟩
  reads level fuel rest hrest hf := by
    obtain ⟨k, rfl, -⟩ := exists_fuel hf
    obtain ⟨ho, hlist, hdict, hquote⟩ := hopens
    rw [hprint, List.cons_append, readValue_atom ho hlist hdict hquote]
    exact hread rest hrest

theorem readsBack_null : ReadsBack .null := by
  refine readsBack_atom 'n' ['u', 'l', 'l'] (fun level => ?_) (by decide) fun rest _ => rfl
  simp only [toJsonLines]
  rfl

theorem readsBack_bool (b : Bool) : ReadsBack (.bool b) := by
  cases b with
  | false =>
    refine readsBack_atom 'f' ['a', 'l', 's', 'e'] (fun level => ?_) (by decide) fun rest _ => rfl
    simp only [toJsonLines]
    rfl
  | true =>
    refine readsBack_atom 't' ['r', 'u', 'e'] (fun level => ?_) (by decide) fun rest _ => rfl
    simp only [toJsonLines]
    rfl

theorem opens_of_isDigit {c : Char} (h : c.isDigit = true ∨ c = '-') :
    Opens c ∧ c ≠ '[' ∧ c ≠ '\x7b' ∧ c ≠ '"' := by
  rcases h with h | rfl
  · have hno : ∀ x ∈ [' ', '\t', '\n', '\r', ']', '\x7d'], x.isDigit = false := by simp
    refine ⟨fun hc => ?_, ?_, ?_, ?_⟩
    · rw [hno c hc] at h
      cases h
    all_goals
      rintro rfl
      revert h
      decide
  · decide

theorem readsBack_int {n : Int} (hn : n.natAbs < 10 ^ Text.maxDigits) : ReadsBack (.int n) := by
  have hstart : ∃ c cs, (toString n).toList = c :: cs ∧ (c.isDigit = true ∨ c = '-') := by
    obtain ⟨d, ds, hd, hdigit⟩ := toDigits_starts n.natAbs
    rw [toList_toString]
    split_ifs
    · exact ⟨d, ds, hd, .inl hdigit⟩
    · exact ⟨'-', _, rfl, .inr rfl⟩
  obtain ⟨c, cs, hc, hkind⟩ := hstart
  refine readsBack_atom c cs (fun level => ?_) (opens_of_isDigit hkind) fun rest hrest => ?_
  · simp only [toJsonLines, jsonAtom, hc]
  · rw [← hc]
    exact readAtom_int hn hrest

theorem readsBack_str (s : String) : ReadsBack (.str s) where
  opens level := by
    simp only [toJsonLines, jsonAtom, toList_jsonText]
    exact ⟨'"', _, rfl, by decide⟩
  reads level fuel rest _ hf := by
    obtain ⟨k, rfl, -⟩ := exists_fuel hf
    simp only [toJsonLines, jsonAtom, toList_jsonText, List.cons_append, List.append_assoc,
      List.nil_append, readValue, skipSpace_of_opens (c := '"') (by decide)]
    rw [readText_escaped _ _ _ (by simp only [List.length_append, List.length_cons]; omega)]
    simp

/-! ## Lists and objects -/

/-- The pieces of a list or object after the first one, each on a line of its own. -/
def laterPieces (level : Nat) (pieces : List (List Char)) : List Char :=
  pieces.flatMap fun p => ',' :: ((newline level).toList ++ p)

theorem laterPieces_cons (level : Nat) (p : List Char) (ps : List (List Char)) :
    laterPieces level (p :: ps) =
      ',' :: ((newline level).toList ++ (p ++ laterPieces level ps)) := by
  simp [laterPieces]

theorem toList_intercalate_cons (level : Nat) (p : String) (ps : List String) :
    (("," ++ newline level).intercalate (p :: ps)).toList =
      p.toList ++ laterPieces level (ps.map String.toList) := by
  induction ps generalizing p with
  | nil => simp [laterPieces]
  | cons q qs ih =>
    rw [String.intercalate_cons_cons, String.toList_append, String.toList_append, ih]
    simp [laterPieces]

theorem closed_laterPieces (level : Nat) (pieces : List (List Char)) (outer : Nat)
    (more : List Char) :
    Closed (laterPieces level pieces ++ ((newline outer).toList ++ more)) := by
  cases pieces with
  | nil => exact Closed.newline outer more
  | cons p ps => exact Closed.comma _

theorem toJsonLinesItems_eq (level : Nat) (items : List Value) :
    toJsonLinesItems level items = items.map (toJsonLines level) := by
  induction items with
  | nil => simp only [toJsonLinesItems, List.map_nil]
  | cons v rest ih => simp only [toJsonLinesItems, List.map_cons, ih]

/-- The text of a field at a level. -/
def fieldLines (level : Nat) (f : String × Value) : String :=
  jsonText f.1 ++ ": " ++ f.2.toJsonLines level

theorem toJsonLinesFields_eq (level : Nat) (fields : List (String × Value)) :
    toJsonLinesFields level fields = fields.map (fieldLines level) := by
  induction fields with
  | nil => simp only [toJsonLinesFields, List.map_nil]
  | cons f rest ih => simp only [toJsonLinesFields, List.map_cons, ih, fieldLines]

theorem readItems_last {fuel : Nat} {done : List Value} {cs rest more : List Char} {v : Value}
    (hv : readValue fuel cs = .ok (v, rest)) (h : skipSpace rest = ']' :: more) :
    readItems (fuel + 1) done cs = .ok (v :: done, more) := by
  simp only [readItems, hv, h]

theorem readItems_next {fuel : Nat} {done : List Value} {cs rest more : List Char} {v : Value}
    (hv : readValue fuel cs = .ok (v, rest)) (h : skipSpace rest = ',' :: more) :
    readItems (fuel + 1) done cs = readItems fuel (v :: done) more := by
  simp only [readItems, hv, h]

/-- The texts of the items of a list. -/
def itemPieces (level : Nat) (items : List Value) : List (List Char) :=
  items.map fun v => (v.toJsonLines level).toList

/-- The items of a list are read one after the other up to its closing bracket. -/
theorem readItems_lines (level outer : Nat) (more : List Char) {cs : List Char} {items : List Value}
    (h : ∀ w ∈ items, ReadsBack w) {v : Value} (hv : ReadsBack v) (done : List Value) {fuel : Nat}
    (hf : (v.toJsonLines level).toList.length +
      (laterPieces level (itemPieces level items)).length + 1 <
      fuel)
    (hcs : skipSpace cs = skipSpace ((v.toJsonLines level).toList ++
      (laterPieces level (itemPieces level items) ++ ((newline outer).toList ++ ']' :: more)))) :
    readItems fuel done cs = .ok (items.reverse ++ v :: done, more) := by
  induction items generalizing v done fuel cs with
  | nil =>
    obtain ⟨k, rfl, hk⟩ := exists_fuel hf
    have hread : readValue k cs = .ok (v, (newline outer).toList ++ ']' :: more) := by
      rw [readValue_of_skipSpace hcs]
      exact hv.reads _ _ _ (Closed.newline outer _) (by omega)
    exact readItems_last hread (skipSpace_newline outer _)
  | cons w items ih =>
    obtain ⟨k, rfl, hk⟩ := exists_fuel hf
    have hlater : laterPieces level (itemPieces level (w :: items)) =
      ',' :: ((newline level).toList ++
        ((w.toJsonLines level).toList ++ laterPieces level (itemPieces level items))) :=
      laterPieces_cons level _ _
    have hread : readValue k cs = .ok (v, laterPieces level (itemPieces level (w :: items)) ++
        ((newline outer).toList ++ ']' :: more)) := by
      rw [readValue_of_skipSpace hcs]
      exact hv.reads _ _ _ (closed_laterPieces _ _ _ _) (by omega)
    rw [hlater] at hk hread
    simp only [List.length_cons, List.length_append] at hk
    simp only [List.cons_append, List.append_assoc] at hread
    rw [readItems_next hread rfl, ih (fun x hx => h x (List.mem_cons_of_mem _ hx))
      (h w List.mem_cons_self) (v :: done) (by omega) (skipSpace_newline level _)]
    simp

theorem toList_fieldLines (level : Nat) (f : String × Value) : (fieldLines level f).toList =
    '"' :: (f.1.toList.flatMap jsonChar ++ '"' :: ':' :: ' ' ::
      (f.2.toJsonLines level).toList) := by
  simp [fieldLines, toList_jsonText, String.toList_append]

/-- What is read after a field: the end of the object or more fields. -/
def readMore (fuel : Nat) (done : List (String × Value)) (cs : List Char) :
    Except ReadFault (List (String × Value) × List Char) :=
  match skipSpace cs with
  | '\x7d' :: rest => .ok (done, rest)
  | ',' :: rest => readFields fuel done rest
  | _ => .error .malformed

/-- The field at the front of some fields is read and stored; what follows it says whether there are
more. -/
theorem readFields_field {level fuel : Nat} {done : List (String × Value)} {f : String × Value}
    {cs rest : List Char} (hv : ReadsBack f.2) (hrest : Closed rest)
    (hf : (f.2.toJsonLines level).toList.length < fuel)
    (hcs : skipSpace cs = (fieldLines level f).toList ++ rest) :
    readFields (fuel + 1) done cs = readMore fuel (addField done f.1 f.2) rest := by
  have hread : readValue fuel (' ' :: ((f.2.toJsonLines level).toList ++ rest)) =
      .ok (f.2, rest) := by
    have hspace : skipSpace (' ' :: ((f.2.toJsonLines level).toList ++ rest)) =
        skipSpace ((f.2.toJsonLines level).toList ++ rest) := rfl
    rw [readValue_of_skipSpace hspace]
    exact hv.reads level fuel rest hrest hf
  rw [toList_fieldLines] at hcs
  simp only [List.cons_append, List.append_assoc] at hcs
  simp only [readFields, hcs]
  rw [readText_escaped _ _ _ (by simp only [List.length_append, List.length_cons]; omega)]
  simp only [skipSpace_of_opens (c := ':') (by decide), hread, String.ofList_toList]
  rfl

theorem length_lt_fieldLines (level : Nat) (f : String × Value) :
    (f.2.toJsonLines level).toList.length < (fieldLines level f).toList.length := by
  rw [toList_fieldLines]
  simp only [List.length_cons, List.length_append]
  omega

/-- A field with a new name is stored behind the others. -/
theorem addField_of_nodup {done fields : List (String × Value)} {f : String × Value}
    (h : ((done ++ f :: fields).map (·.1)).Nodup) : addField done f.1 f.2 = done ++ [f] := by
  have hnew : f.1 ∉ (Table.mk done).keys := by
    rw [List.map_append, List.nodup_append] at h
    exact fun hk => h.2.2 _ hk _ List.mem_cons_self rfl
  rw [addField, Table.insert_of_not_mem hnew]

/-- The texts of the fields of an object. -/
def fieldPieces (level : Nat) (fields : List (String × Value)) : List (List Char) :=
  fields.map fun f => (fieldLines level f).toList

/-- The fields of an object are read one after the other up to its closing brace. -/
theorem readFields_lines (level outer : Nat) (more : List Char) {cs : List Char}
    {fields : List (String × Value)}
    (h : ∀ g ∈ fields, ReadsBack g.2) {f : String × Value} (hf : ReadsBack f.2)
    {done : List (String × Value)} (hkeys : ((done ++ f :: fields).map (·.1)).Nodup) {fuel : Nat}
    (hfuel : (fieldLines level f).toList.length +
      (laterPieces level (fieldPieces level fields)).length + 1 <
      fuel)
    (hcs : skipSpace cs = (fieldLines level f).toList ++
      (laterPieces level (fieldPieces level fields) ++
        ((newline outer).toList ++ '\x7d' :: more))) :
    readFields fuel done cs = .ok (done ++ f :: fields, more) := by
  have hvalue := length_lt_fieldLines level f
  induction fields generalizing f done fuel cs with
  | nil =>
    obtain ⟨k, rfl, hk⟩ := exists_fuel hfuel
    rw [readFields_field hf (closed_laterPieces _ _ _ _) (by omega) hcs, addField_of_nodup hkeys]
    simp only [readMore, fieldPieces, laterPieces, List.map_nil, List.flatMap_nil, List.nil_append,
      skipSpace_newline]
    rfl
  | cons g fields ih =>
    obtain ⟨k, rfl, hk⟩ := exists_fuel hfuel
    have hlater : laterPieces level (fieldPieces level (g :: fields)) =
      ',' :: ((newline level).toList ++
        ((fieldLines level g).toList ++ laterPieces level (fieldPieces level fields))) :=
      laterPieces_cons level _ _
    rw [readFields_field hf (closed_laterPieces _ _ _ _) (by omega) hcs,
      addField_of_nodup hkeys, hlater]
    simp only [readMore, List.cons_append, List.append_assoc,
      skipSpace_of_opens (c := ',') (by decide)]
    rw [hlater] at hk
    simp only [List.length_cons, List.length_append] at hk
    rw [ih (fun x hx => h x (List.mem_cons_of_mem _ hx)) (h g List.mem_cons_self)
      (by simpa using hkeys) (by omega) ?_ (length_lt_fieldLines level g)]
    · simp
    · rw [skipSpace_newline, toList_fieldLines, List.cons_append, skipSpace_of_opens (by decide)]

theorem toList_list (level : Nat) (v : Value) (items : List Value) :
    ((Value.list (v :: items)).toJsonLines level).toList =
      '[' :: ((newline (level + 1)).toList ++ ((v.toJsonLines (level + 1)).toList ++
        (laterPieces (level + 1) (itemPieces (level + 1) items) ++
          ((newline level).toList ++ [']'])))) := by
  simp only [toJsonLines, toJsonLinesItems_eq, List.map_cons, String.toList_append,
    toList_intercalate_cons, itemPieces, List.map_map, List.append_assoc]
  rfl

theorem toList_dict (level : Nat) (f : String × Value) (fields : List (String × Value)) :
    ((Value.dict (f :: fields)).toJsonLines level).toList =
      '\x7b' :: ((newline (level + 1)).toList ++ ((fieldLines (level + 1) f).toList ++
        (laterPieces (level + 1) (fieldPieces (level + 1) fields) ++
          ((newline level).toList ++ ['\x7d'])))) := by
  simp only [toJsonLines, toJsonLinesFields_eq, List.map_cons, String.toList_append,
    toList_intercalate_cons, fieldPieces, List.map_map, List.append_assoc]
  rfl

theorem readValue_list {fuel : Nat} {cs ds : List Char} (h : skipSpace cs = ds)
    (hd : ∀ r, ds ≠ ']' :: r) : readValue (fuel + 1) ('[' :: cs) =
      (readItems fuel [] ds).map fun p => (.list p.1.reverse, p.2) := by
  simp only [readValue, skipSpace_of_opens (c := '[') (by decide), h]

theorem readValue_dict {fuel : Nat} {cs ds : List Char} (h : skipSpace cs = ds)
    (hd : ∀ r, ds ≠ '\x7d' :: r) : readValue (fuel + 1) ('\x7b' :: cs) =
      (readFields fuel [] ds).map fun p => (.dict p.1, p.2) := by
  simp only [readValue, skipSpace_of_opens (c := '\x7b') (by decide), h]

theorem readsBack_list {items : List Value} (h : ∀ v ∈ items, ReadsBack v) :
    ReadsBack (.list items) := by
  cases items with
  | nil =>
    have hprint : ∀ level, ((Value.list []).toJsonLines level).toList = ['[', ']'] :=
      fun level => by
      simp only [toJsonLines, jsonAtom]
      rfl
    refine ⟨fun level => ⟨_, _, hprint level, by decide⟩, fun level fuel rest _ hf => ?_⟩
    obtain ⟨k, rfl, -⟩ := exists_fuel hf
    rw [hprint, readValue]
    rfl
  | cons v items =>
    refine ⟨fun level => ⟨_, _, toList_list level v items, by decide⟩,
      fun level fuel rest _ hf => ?_⟩
    obtain ⟨k, rfl, hk⟩ := exists_fuel hf
    have hv := h v List.mem_cons_self
    obtain ⟨c, cs, hc, hopens⟩ := hv.opens (level + 1)
    rw [toList_list] at hk ⊢
    simp only [List.length_cons, List.length_append] at hk
    simp only [List.cons_append, List.append_assoc, List.nil_append]
    rw [readValue_list rfl, readItems_lines (level + 1) level rest
      (fun w hw => h w (List.mem_cons_of_mem _ hw)) hv [] (by omega)]
    · simp [Except.map]
    · rw [skipSpace_newline, hc, List.cons_append, skipSpace_of_opens hopens,
        skipSpace_of_opens hopens]
    · rw [skipSpace_newline, hc, List.cons_append, skipSpace_of_opens hopens]
      exact fun r hr => hopens (by simp [(List.cons.inj hr).1])

theorem readsBack_dict {fields : List (String × Value)} (hkeys : (fields.map (·.1)).Nodup)
    (h : ∀ f ∈ fields, ReadsBack f.2) : ReadsBack (.dict fields) := by
  cases fields with
  | nil =>
    have hprint : ∀ level, ((Value.dict []).toJsonLines level).toList = ['\x7b', '\x7d'] :=
      fun level => by
      simp only [toJsonLines, jsonAtom]
      rfl
    refine ⟨fun level => ⟨_, _, hprint level, by decide⟩, fun level fuel rest _ hf => ?_⟩
    obtain ⟨k, rfl, -⟩ := exists_fuel hf
    rw [hprint, readValue]
    rfl
  | cons f fields =>
    refine ⟨fun level => ⟨_, _, toList_dict level f fields, by decide⟩,
      fun level fuel rest _ hf => ?_⟩
    obtain ⟨k, rfl, hk⟩ := exists_fuel hf
    rw [toList_dict] at hk ⊢
    simp only [List.length_cons, List.length_append] at hk
    simp only [List.cons_append, List.append_assoc, List.nil_append]
    have hbody : skipSpace ((newline (level + 1)).toList ++ ((fieldLines (level + 1) f).toList ++
        (laterPieces (level + 1) (fieldPieces (level + 1) fields) ++
          ((newline level).toList ++ '\x7d' :: rest)))) = (fieldLines (level + 1) f).toList ++
        (laterPieces (level + 1) (fieldPieces (level + 1) fields) ++
          ((newline level).toList ++ '\x7d' :: rest)) := by
      rw [skipSpace_newline, toList_fieldLines, List.cons_append, skipSpace_of_opens (by decide)]
    rw [readValue_dict hbody, readFields_lines (level + 1) level rest
      (fun g hg => h g (List.mem_cons_of_mem _ hg)) (h f List.mem_cons_self) hkeys (by omega)]
    · rfl
    · rw [toList_fieldLines, List.cons_append, skipSpace_of_opens (by decide)]
    · rw [toList_fieldLines, List.cons_append]
      exact fun r hr => absurd (List.cons.inj hr).1 (by decide)

/-! ## Documents -/

/-- A value that a document keeps: no fraction occurs in it, no integer is too long, and no object
has a name twice. -/
inductive Storable : Value → Prop
  | null : Storable .null
  | bool (b : Bool) : Storable (.bool b)
  | int {n : Int} (h : n.natAbs < 10 ^ Text.maxDigits) : Storable (.int n)
  | str (s : String) : Storable (.str s)
  | list {items : List Value} (h : ∀ v ∈ items, Storable v) : Storable (.list items)
  | dict {fields : List (String × Value)} (hkeys : (fields.map (·.1)).Nodup)
      (h : ∀ f ∈ fields, Storable f.2) : Storable (.dict fields)

theorem Storable.readsBack {v : Value} (h : Storable v) : ReadsBack v := by
  induction h with
  | null => exact readsBack_null
  | bool b => exact readsBack_bool b
  | int h => exact readsBack_int h
  | str s => exact readsBack_str s
  | list _ ih => exact readsBack_list ih
  | dict hkeys _ ih => exact readsBack_dict hkeys ih

/-- **A document is read back**: reading what was written gives the value. -/
theorem ofJson_toJsonLines {v : Value} (h : Storable v) : ofJson (v.toJsonLines 0) = .ok v := by
  have hread := h.readsBack.reads 0 ((v.toJsonLines 0).length + 1) [] (.inl rfl)
    (by simp [String.length_toList])
  rw [List.append_nil] at hread
  rw [ofJson, hread]
  rfl

/-! ## Names -/

theorem map_eq_ok {ε α β : Type} {x : Except ε α} {f : α → β} {b : β} (h : x.map f = .ok b) :
    ∃ a, x = .ok a ∧ f a = b := by
  cases x with
  | error e => cases h
  | ok a => exact ⟨a, rfl, Except.ok.inj h⟩

/-- No object in the value has a name twice. -/
inductive Distinct : Value → Prop
  | null : Distinct .null
  | bool (b : Bool) : Distinct (.bool b)
  | int (n : Int) : Distinct (.int n)
  | float (x : Binary64) : Distinct (.float x)
  | str (s : String) : Distinct (.str s)
  | list {items : List Value} (h : ∀ v ∈ items, Distinct v) : Distinct (.list items)
  | dict {fields : List (String × Value)} (hkeys : (fields.map (·.1)).Nodup)
      (h : ∀ f ∈ fields, Distinct f.2) : Distinct (.dict fields)

theorem distinct_of_readWord? {cs rest : List Char} {v : Value}
    (h : readWord? cs = some (v, rest)) :
    Distinct v := by
  have hword {w : String} {u : Value} (hu : (afterWord? w cs).map (u, ·) = some (v, rest)) : u =
      v := by
    obtain ⟨_, -, hr⟩ := Option.map_eq_some_iff.1 hu
    exact (Prod.mk.inj hr).1
  simp only [readWord?, Option.orElse_eq_orElse, Option.orElse_eq_or, Option.or_eq_some_iff] at h
  rcases h with h | ⟨-, h | ⟨-, h | ⟨-, h | ⟨-, h | ⟨-, h⟩⟩⟩⟩⟩ <;> obtain rfl := hword h
  · exact .null
  · exact .bool true
  · exact .bool false
  · exact .float _
  · exact .float _
  · exact .float _

theorem distinct_of_readNumber {negative : Bool} {cs rest : List Char} {v : Value}
    (h : readNumber negative cs = .ok (v, rest)) : Distinct v := by
  rw [readNumber_eq] at h
  split at h
  · cases h
  · split at h
    · cases h
      exact .float _
    · split at h
      · split at h
        · cases h
          exact .int _
        · cases h
      · cases h
        exact .float _

theorem distinct_of_readAtom {cs rest : List Char} {v : Value} (h : readAtom cs = .ok (v, rest)) :
    Distinct v := by
  unfold readAtom at h
  split at h
  · rename_i found hword
    cases h
    exact distinct_of_readWord? hword
  · split at h
    · exact distinct_of_readNumber h
    · exact distinct_of_readNumber h

theorem distinct_addField {fields : List (String × Value)} (hkeys : (fields.map (·.1)).Nodup)
    (h : ∀ f ∈ fields, Distinct f.2) (k : String) {v : Value} (hv : Distinct v) :
    ((addField fields k v).map (·.1)).Nodup ∧ ∀ f ∈ addField fields k v, Distinct f.2 := by
  refine ⟨Table.nodup_keys_insert (t := ⟨fields⟩) hkeys k v, fun f hf => ?_⟩
  rcases Table.mem_of_mem_insert hf with rfl | hold
  · exact hv
  · exact h f hold

/-- Values, items and fields are read without repeated names, with the fuel that they share. -/
structure ReadsDistinct (fuel : Nat) : Prop where
  value : ∀ {cs v rest}, readValue fuel cs = .ok (v, rest) → Distinct v
  items : ∀ done {cs items rest}, (∀ v ∈ done, Distinct v) →
    readItems fuel done cs = .ok (items, rest) → ∀ v ∈ items, Distinct v
  fields : ∀ done {cs fields rest}, (done.map (·.1)).Nodup → (∀ f ∈ done, Distinct f.2) →
    readFields fuel done cs = .ok (fields, rest) → Distinct (.dict fields)

namespace ReadsDistinct

variable {fuel : Nat} {cs rest : List Char}

theorem readValue (h : ReadsDistinct fuel) {v : Value}
    (hread : Value.readValue (fuel + 1) cs = .ok (v, rest)) : Distinct v := by
  rw [Value.readValue] at hread
  split at hread
  · split at hread
    · cases hread
      exact .list (fun _ hv => nomatch hv)
    · obtain ⟨⟨items, rest'⟩, hitems, heq⟩ := map_eq_ok hread
      cases heq
      exact .list fun w hw => h.items [] (fun _ hv => nomatch hv) hitems w (List.mem_reverse.1 hw)
  · split at hread
    · cases hread
      exact .dict .nil (fun _ hf => nomatch hf)
    · obtain ⟨⟨fields, rest'⟩, hfields, heq⟩ := map_eq_ok hread
      cases heq
      exact h.fields [] .nil (fun _ hf => nomatch hf) hfields
  · split at hread
    · cases hread
      exact .str _
    · cases hread
  · exact distinct_of_readAtom hread

theorem readItems (h : ReadsDistinct fuel) (done : List Value) {items : List Value}
    (hdone : ∀ v ∈ done, Distinct v)
    (hread : Value.readItems (fuel + 1) done cs = .ok (items, rest)) : ∀ v ∈ items, Distinct v := by
  rw [Value.readItems] at hread
  split at hread
  · cases hread
  · rename_i v rest' hvalue
    have hnew : ∀ w ∈ v :: done, Distinct w := List.forall_mem_cons.2 ⟨h.value hvalue, hdone⟩
    split at hread
    · cases hread
      exact hnew
    · exact h.items _ hnew hread
    · cases hread

theorem readFields (h : ReadsDistinct fuel) (done : List (String × Value))
    {fields : List (String × Value)} (hkeys : (done.map (·.1)).Nodup)
    (hdone : ∀ f ∈ done, Distinct f.2)
    (hread : Value.readFields (fuel + 1) done cs = .ok (fields, rest)) :
    Distinct (.dict fields) := by
  rw [Value.readFields] at hread
  split at hread
  · split at hread
    · cases hread
    · rename_i k rest' _
      split at hread
      · split at hread
        · cases hread
        · rename_i v rest'' hvalue
          obtain ⟨hkeys', hdone'⟩ := distinct_addField hkeys hdone (.ofList k) (h.value hvalue)
          simp only at hread
          split at hread
          · cases hread
            exact .dict hkeys' hdone'
          · exact h.fields _ hkeys' hdone' hread
          · cases hread
      · cases hread
  · cases hread

end ReadsDistinct

theorem readsDistinct (fuel : Nat) : ReadsDistinct fuel := by
  induction fuel with
  | zero => exact ⟨nofun, fun _ => nofun, fun _ => nofun⟩
  | succ fuel ih =>
    exact ⟨ih.readValue, fun done => ih.readItems done, fun done => ih.readFields done⟩

/-- A document is read as a value without repeated names. -/
theorem distinct_of_ofJson {s : String} {v : Value} (h : ofJson s = .ok v) : Distinct v := by
  unfold ofJson at h
  split at h
  · cases h
  · rename_i w rest hread
    split at h
    · cases h
      exact (readsDistinct _).value hread
    · cases h

end Value

end Deadwood
