import Deadwood.Library
import Deadwood.Proofs.WrittenRange

/-!
# What an ignore entry means

An entry with a scope, a name and an arity can be spelled as a list, a tuple, an object or a symbol,
and is compiled to one of three kinds of specification. Neither the spelling nor the kind matters: a
symbol is covered if the conditions of the three fields hold of it. The entry of a class covers the
initializer of its fields, too.

* `Spells given scope name arity`: `given` is an entry with these fields.
* `Spells.accepted_iff`: an entry is accepted if its fields are.
* `matches_ofFields`: what the compiled specification covers, by the conditions of the fields;
  `Spells.covered` says it by the entry. `compileText_exact_record_iff` and `compileArity_exact_iff`
  tell the entries of classes.
* `toOption_compile_of_free`: an entry that leaves the arity open can be spelled in any way.
* `compile_fieldwise` puts them together with the two forms of ranges; `longRange_refused` is a
  range that is refused.
-/

namespace Deadwood.Ignore

/-! ## Spellings -/

/-- `given` is an entry with these three fields, `null` standing for one that is missing. -/
inductive Spells : Setting → Setting → Setting → Setting → Prop
  | list₂ (scope name : Setting) : Spells (.list [scope, name]) scope name .null
  | list₃ (scope name arity : Setting) : Spells (.list [scope, name, arity]) scope name arity
  | tuple₂ (scope name : Setting) : Spells (.tuple [scope, name]) scope name .null
  | tuple₃ (scope name arity : Setting) : Spells (.tuple [scope, name, arity]) scope name arity
  | symbol (scope name arity : Setting) : Spells (.symbol scope name arity) scope name arity
  | dict (fields : List (Setting × Setting)) (h : ∀ f ∈ fields, isKnownKey f.1 = true) :
    Spells (.dict fields) ((Setting.field? fields "scope").getD .null)
      ((Setting.field? fields "name").getD .null)
      ((Setting.field? fields "arity").getD .null)

variable {pattern : String → Library.Answer String Pattern} {given scope name arity : Setting}

theorem Spells.compile_eq (h : Spells given scope name arity) :
    compile pattern given = compileFields pattern scope name arity given := by
  cases h with
  | dict fields h =>
    have hknown : ((fields.map (·.1)).filter fun k => !isKnownKey k) = [] := by
      simpa [List.filter_eq_nil_iff] using h
    simp only [compile, hknown, List.isEmpty_nil, if_true]
  | list₂ | list₃ | tuple₂ | tuple₃ | symbol => rfl

theorem compileFields_eq_ok_iff {spec : Spec} :
    compileFields pattern scope name arity given = .ok spec ↔ ∃ onScope onName onArity,
      compileText pattern scope given "scope" = .ok onScope ∧
        compileText pattern name given "name" = .ok onName ∧
        compileArity arity given = .ok onArity ∧ spec = .ofFields onScope onName onArity := by
  unfold compileFields
  cases compileText pattern scope given "scope" with
  | error e => simp [bind, Except.bind]
  | ok onScope =>
    cases compileText pattern name given "name" with
    | error e => simp [bind, Except.bind]
    | ok onName =>
      cases compileArity arity given with
      | error e => simp [bind, Except.bind]
      | ok onArity => simp [bind, Except.bind, pure, Except.pure, eq_comm]

/-! ## The class entry -/

/-- A name that reads as the one reserved for classes. -/
def IsRecordName (v : Setting) : Prop := ∃ s, v = .str s ∧ Text.trim s = Symbol.recordName

/-- An arity that reads as the number `n`. -/
def IsNumber (v : Setting) (n : Int) : Prop :=
  v = .int n ∨ ∃ s k, v = .str s ∧ (Text.trim s).toList.all Text.isDigit = true ∧
    Text.readDigits? (Text.trim s).toList = some k ∧ n = k

theorem compileText_exact_record_iff {v given : Setting} {what : String} :
    compileText pattern v given what = .ok (.exact Symbol.recordName) ↔ IsRecordName v := by
  constructor
  · intro h
    cases v with
    | str s =>
      by_cases hwild : isWildcard (Text.trim s) = true
      · simp [compileText, hwild] at h
      · cases hpattern : patternText? (Text.trim s) with
        | none =>
          by_cases hempty : (Text.trim s).isEmpty = true
          · simp [compileText, hwild, hpattern, hempty] at h
          · simp only [compileText, if_neg hwild, hpattern, if_neg hempty, Except.ok.injEq,
              TextField.exact.injEq] at h
            exact ⟨s, rfl, h⟩
        | some source =>
          cases hcompiled : pattern source with
          | ok p => simp [compileText, hwild, hpattern, hcompiled] at h
          | error e => cases e <;> simp [compileText, hwild, hpattern, hcompiled] at h
    | _ => simp [compileText] at h
  · rintro ⟨s, rfl, hs⟩
    have hwild : isWildcard Symbol.recordName = false := by decide
    have hpattern : patternText? Symbol.recordName = none := by decide
    have hempty : Symbol.recordName.isEmpty = false := by decide
    simp [compileText, hs, hwild, hpattern, hempty]

theorem compileArity_exact_iff {v given : Setting} {n : Int} (hn : 0 ≤ n) :
    compileArity v given = .ok (.exact n) ↔ IsNumber v n := by
  constructor
  · intro h
    cases v with
    | int m =>
      simp only [compileArity] at h
      split_ifs at h
      cases h
      exact .inl rfl
    | range start stop step =>
      simp only [compileArity] at h
      split_ifs at h
      cases h
    | str s =>
      by_cases hwild : isWildcard (Text.trim s) = true
      · simp [compileArity, hwild] at h
      · by_cases hdigits : (!(Text.trim s).isEmpty && (Text.trim s).toList.all Text.isDigit) = true
        · simp only [compileArity, if_neg hwild, if_pos hdigits] at h
          cases hread : Text.readDigits? (Text.trim s).toList with
          | none => simp [hread] at h
          | some k =>
            simp only [hread, Except.ok.injEq, ArityField.exact.injEq] at h
            exact .inr ⟨s, k, rfl, (Bool.and_eq_true_iff.1 hdigits).2, hread, h.symm⟩
        · simp only [compileArity, if_neg hwild, if_neg hdigits] at h
          cases hends : rangeEnds? (Text.trim s) with
          | none => simp [hends] at h
          | some ends =>
            cases hlo : Text.readDigits? ends.1 with
            | none => simp [hends, hlo] at h
            | some lo =>
              cases hhi : Text.readDigits? ends.2 with
              | none => simp [hends, hlo, hhi] at h
              | some hi =>
                simp only [hends, hlo, hhi] at h
                split_ifs at h
                cases h
    | _ => simp [compileArity] at h
  · rintro (rfl | ⟨s, k, rfl, hdigits, hread, rfl⟩)
    · simp [compileArity, Int.not_lt.2 hn]
    · have hwild : isWildcard (Text.trim s) = false := by
        have hne : ∀ t : String, t.toList.all Text.isDigit = false → Text.trim s ≠ t := by
          rintro t ht rfl
          rw [hdigits] at ht
          cases ht
        simp [isWildcard, hne "_" (by decide), hne "*" (by decide)]
      have hempty : (Text.trim s).isEmpty = false := by
        cases hs : (Text.trim s).isEmpty with
        | false => rfl
        | true =>
          rw [String.isEmpty_iff.1 hs] at hread
          cases hread
      simp [compileArity, hwild, hempty, hdigits, hread]

/-! ## What is covered -/

/-- The three conditions hold of a symbol. -/
def Covers (onScope onName : TextField) (onArity : ArityField) (x : Symbol) : Prop :=
  onScope.holds x.scope = true ∧ onName.holds x.name = true ∧ onArity.holds x.arity = true

/-- Whatever kind of specification is chosen, it covers a symbol if the three conditions hold of it;
that of a class covers the initializer of its fields, too. -/
theorem matches_ofFields (onScope onName : TextField) (onArity : ArityField) (x : Symbol)
    (info : Option Meta) :
    ∃ covered, (Spec.ofFields onScope onName onArity).matches x info = .ok covered ∧
      (covered = true ↔ Covers onScope onName onArity x ∨
        (onName = .exact Symbol.recordName ∧ onArity = .exact 0) ∧
          onScope.holds x.scope = true ∧ x.name = Symbol.recordName ∧ x.arity = 1) := by
  unfold Spec.ofFields
  split_ifs with hrecord hscope
  · obtain ⟨rfl, rfl⟩ := hrecord
    refine ⟨_, rfl, ?_⟩
    simp only [Covers, TextField.holds, ArityField.holds, Bool.and_eq_true, Bool.or_eq_true,
      decide_eq_true_eq,
      true_and]
    tauto
  · obtain ⟨rfl, rfl⟩ := hscope
    refine ⟨_, rfl, ?_⟩
    simp [Covers, TextField.holds, ArityField.holds]
  · refine ⟨_, rfl, ?_⟩
    simp [Covers, hrecord, and_assoc]

/-! ## Entries without an arity -/

/-- An arity that is missing or stands for anything. -/
def Free (v : Setting) : Prop := v = .null ∨ ∃ s, v = .str s ∧ isWildcard (Text.trim s) = true

theorem compileArity_of_free {v : Setting} (h : Free v) (given : Setting) :
    compileArity v given = .ok .any := by
  rcases h with rfl | ⟨s, rfl, hs⟩
  · rfl
  · simp [compileArity, hs]

/-- The setting that a text stands in matters for the message alone. -/
theorem toOption_compileText (v given given' : Setting) (what : String) :
    (compileText pattern v given what).toOption = (compileText pattern v given' what).toOption := by
  cases v with
  | str s =>
    simp only [compileText]
    by_cases hwild : isWildcard (Text.trim s) = true
    · simp only [if_pos hwild]
    · simp only [if_neg hwild]
      cases patternText? (Text.trim s) with
      | none => by_cases hempty : (Text.trim s).isEmpty = true <;> simp [hempty, Except.toOption]
      | some source =>
        cases hcompiled : pattern source with
        | ok p => simp [hcompiled]
        | error e => cases e <;> simp [hcompiled, Except.toOption]
  | _ => rfl

theorem toOption_compileFields (scope name arity given : Setting) :
    (compileFields pattern scope name arity given).toOption =
      (compileText pattern scope given "scope").toOption.bind fun onScope =>
        (compileText pattern name given "name").toOption.bind fun onName =>
          (compileArity arity given).toOption.map (Spec.ofFields onScope onName) := by
  unfold compileFields
  cases compileText pattern scope given "scope" with
  | error e => rfl
  | ok onScope =>
    cases compileText pattern name given "name" with
    | error e => rfl
    | ok onName => cases compileArity arity given <;> rfl

/-- Entries that have a scope and name in common and leave the arity open are compiled to the same
specification, or refused together. -/
theorem toOption_compile_of_free {given' arity' : Setting} (h : Spells given scope name arity)
    (h' : Spells given' scope name arity') (hfree : Free arity) (hfree' : Free arity') :
    (compile pattern given).toOption = (compile pattern given').toOption := by
  rw [h.compile_eq, h'.compile_eq, toOption_compileFields, toOption_compileFields,
    compileArity_of_free hfree,
    compileArity_of_free hfree', toOption_compileText scope given given',
      toOption_compileText name given given']

/-! ## Entries in general -/

/-- What an entry that is accepted covers, by its fields. -/
theorem Spells.covered (h : Spells given scope name arity) {spec : Spec}
    (hspec : compile pattern given = .ok spec) :
    ∃ onScope onName onArity,
      (compileText pattern scope given "scope" = .ok onScope ∧
        compileText pattern name given "name" = .ok onName ∧
        compileArity arity given = .ok onArity) ∧
      ∀ x info, ∃ covered, spec.matches x info = .ok covered ∧
        (covered = true ↔ Covers onScope onName onArity x ∨ (IsRecordName name ∧ IsNumber arity 0) ∧
          onScope.holds x.scope = true ∧ x.name = Symbol.recordName ∧ x.arity = 1) := by
  rw [h.compile_eq] at hspec
  obtain ⟨onScope, onName, onArity, hscope, hname, harity, rfl⟩ := compileFields_eq_ok_iff.1 hspec
  refine ⟨onScope, onName, onArity, ⟨hscope, hname, harity⟩, fun x info => ?_⟩
  have hrecord : onName = .exact Symbol.recordName ↔ IsRecordName name := by
    rw [← compileText_exact_record_iff, hname, Except.ok.injEq]
  have hzero : onArity = .exact 0 ↔ IsNumber arity 0 := by
    rw [← compileArity_exact_iff (Int.le_refl 0), harity, Except.ok.injEq]
  rw [← hrecord, ← hzero]
  exact matches_ofFields onScope onName onArity x info

theorem Spells.accepted_iff (h : Spells given scope name arity) :
    (∃ spec, compile pattern given = .ok spec) ↔
      (∃ onScope, compileText pattern scope given "scope" = .ok onScope) ∧
      (∃ onName, compileText pattern name given "name" = .ok onName) ∧
      ∃ onArity, compileArity arity given = .ok onArity := by
  simp only [h.compile_eq, compileFields_eq_ok_iff]
  constructor
  · rintro ⟨spec, onScope, onName, onArity, hscope, hname, harity, -⟩
    exact ⟨⟨onScope, hscope⟩, ⟨onName, hname⟩, ⟨onArity, harity⟩⟩
  · rintro ⟨⟨onScope, hscope⟩, ⟨onName, hname⟩, ⟨onArity, harity⟩⟩
    exact ⟨_, onScope, onName, onArity, hscope, hname, harity, rfl⟩

theorem holds_between_iff {lo hi : Nat} {n : Int} :
    (ArityField.between lo hi).holds n = true ↔ lo ≤ n ∧ n ≤ hi := by
  simp [ArityField.holds]

variable (pattern) in
/-- **An entry means what its fields mean**, however it is spelled. It is accepted if its scope, its
name and its arity are, and then it covers a symbol if the conditions of the three hold of it; with
the reserved name and the arity 0 it covers the initializer of the fields of a class as well.
Entries that leave the arity open are all the same. A range of arities, written with any white space
or given as integers, holds of the arities from its first number to its last; it is refused only if
a number has too many digits or there are too many integers. -/
theorem compile_fieldwise (given scope name arity : Setting) (h : Spells given scope name arity) :
    ((∃ spec, compile pattern given = .ok spec) ↔
      (∃ onScope, compileText pattern scope given "scope" = .ok onScope) ∧
      (∃ onName, compileText pattern name given "name" = .ok onName) ∧
      ∃ onArity, compileArity arity given = .ok onArity) ∧
    (∀ spec, compile pattern given = .ok spec → ∃ onScope onName onArity,
      (compileText pattern scope given "scope" = .ok onScope ∧
        compileText pattern name given "name" = .ok onName ∧
        compileArity arity given = .ok onArity) ∧
      ∀ x info, ∃ covered, spec.matches x info = .ok covered ∧
        (covered = true ↔ Covers onScope onName onArity x ∨ (IsRecordName name ∧ IsNumber arity 0) ∧
          onScope.holds x.scope = true ∧ x.name = Symbol.recordName ∧ x.arity = 1)) ∧
    (∀ given' arity', Spells given' scope name arity' → Free arity → Free arity' →
      (compile pattern given).toOption = (compile pattern given').toOption) ∧
    ∀ lo hi : Nat, lo ≤ hi →
      (∀ before left right after, Text.Blank before → Text.Blank left → Text.Blank right →
        Text.Blank after →
        arity = .str (writtenRange before lo left right hi after) → compileArity arity given =
          if hi < 10 ^ Text.maxDigits then .ok (.between lo hi) else .error .notANumber) ∧
      (arity = .range lo (hi + 1) 1 → compileArity arity given =
        if hi + 1 - lo ≤ maxSpan then .ok (.between lo hi) else .error .rangeTooLong) ∧
      ∀ n : Int, (ArityField.between lo hi).holds n = true ↔ lo ≤ n ∧ n ≤ hi := by
  refine ⟨h.accepted_iff, fun spec => h.covered,
    fun given' arity' => toOption_compile_of_free h, ?_⟩
  intro lo hi hle
  refine ⟨?_, ?_, fun n => holds_between_iff⟩
  · rintro before left right after hbefore hleft hright hafter rfl
    exact compileArity_written hbefore hleft hright hafter hle given
  · rintro rfl
    exact compileArity_range hle given

/-- An entry with the integers below 2⁶³ is refused, as they are too many. Two numbers with white
space around them are accepted, and the entry of a class covers the initializer of its fields. -/
theorem longRange_refused :
    (¬ ∃ spec, compile Library.readPattern
      (.list [.str "a", .str "b", .range 0 9223372036854775808 1]) = .ok spec) ∧
    compileArity (.str " 2 .. 3 ") (.list [.null, .null, .str " 2 .. 3 "]) = .ok (.between 2 3) ∧
    ∃ spec, compile Library.readPattern (.tuple [.str "m.C", .str "__struct__", .int 0]) =
      .ok spec ∧
      spec.matches ⟨"m.C", "__struct__", 1⟩ none = .ok true ∧
      spec.matches ⟨"m.C", "__struct__", 2⟩ none = .ok false := by
  refine ⟨fun haccepted => ?_, ?_, ?_⟩
  · have hentry := compile_fieldwise Library.readPattern
      _ _ _ _ (.list₃ (.str "a") (.str "b") (.range 0 9223372036854775808 1))
    obtain ⟨-, -, onArity, harity⟩ := hentry.1.1 haccepted
    rw [(hentry.2.2.2 0 9223372036854775807 (by decide)).2.1 rfl, if_neg (by decide)] at harity
    cases harity
  · have hblank : Text.Blank " " := by
      intro c hc
      rw [List.mem_singleton.1 hc]
      decide
    have hsmall : 3 < 10 ^ Text.maxDigits :=
      Nat.lt_of_lt_of_le (by decide : 3 < 10 ^ 1) (Nat.pow_le_pow_right (by decide) (by decide))
    have hentry :=
      compile_fieldwise Library.readPattern _ _ _ _ (.list₃ .null .null (.str " 2 .. 3 "))
    have hread := (hentry.2.2.2 2 3 (by decide)).1 " " " " " " " " hblank hblank hblank hblank rfl
    exact hread.trans (if_pos hsmall)
  · have hentry := compile_fieldwise Library.readPattern
      _ _ _ _ (.tuple₃ (.str "m.C") (.str "__struct__") (.int 0))
    have hscope : ∀ given, compileText Library.readPattern (.str "m.C") given "scope" =
      .ok (.exact "m.C") := fun _ => rfl
    obtain ⟨spec, hspec⟩ := hentry.1.2 ⟨⟨_, hscope _⟩, ⟨.exact "__struct__", rfl⟩, ⟨.exact 0, rfl⟩⟩
    obtain ⟨onScope, onName, onArity, ⟨hs, hn, ha⟩, hcovers⟩ := hentry.2.1 spec hspec
    obtain rfl := Except.ok.inj ((hscope _).symm.trans hs)
    obtain rfl : .exact 0 = onArity := Except.ok.inj ha
    obtain ⟨initializer, hinitializer, hcovered⟩ := hcovers ⟨"m.C", "__struct__", 1⟩ none
    obtain ⟨other, hother, hmissed⟩ := hcovers ⟨"m.C", "__struct__", 2⟩ none
    refine ⟨spec, hspec, ?_, ?_⟩
    · rw [hinitializer, hcovered.2 (.inr ⟨⟨⟨_, rfl, by decide⟩, .inl rfl⟩, rfl, rfl, rfl⟩)]
    · have hfalse : other = false := by
        refine Bool.eq_false_iff.2 fun h => ?_
        rcases hmissed.1 h with ⟨-, -, harity⟩ | ⟨-, -, -, harity⟩ <;> cases harity
      rw [hother, hfalse]

end Deadwood.Ignore
