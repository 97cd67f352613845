import Deadwood.Dispatch
import Deadwood.Proofs.Refusals

/-!
# What the suggested ignore entries cover

A warning about dynamic dispatch names a scope and suggests an ignore entry for it. The scope stands
in the entry as it is, and entries give some texts a meaning of their own: white space around a text
does not count, `_` and `*` stand for anything, and a text that begins with `re:` or stands between
slashes is a pattern.

* `Primitive`: the symbols that look up names at run time. `reported_iff` says which scopes are
  reported.
* `ReadsAs pattern scope field`: the condition as which an entry reads a scope.
  `compile_suggestion_eq_ok_iff` says that the suggested entry is this condition.
* `Literal`: the scopes that stand for themselves. `suggestion_precise_iff`: the suggested entry
  covers just the symbols of its scope if this is one of them, or else happens to be a pattern that
  fits itself alone.
* `underscore_covers_all` is a scope whose entry covers everything.
-/

namespace Deadwood

namespace Text

theorem dropBlank_eq_self_iff {cs : List Char} :
    dropBlank cs = cs ↔ ∀ c ∈ cs.head?, isBlank c = false := by
  constructor
  · intro h c hc
    have hhead := List.head?_dropWhile_not isBlank cs
    rw [← dropBlank, h, Option.mem_def.1 hc] at hhead
    simpa using hhead
  · exact fun h => dropBlank_append (List.forall_mem_nil _) h

/-- Trimming changes nothing if there is no white space at the two ends. -/
theorem trim_eq_self_iff {s : String} :
    trim s = s ↔ (∀ c ∈ s.toList.head?, isBlank c = false) ∧ ∀ c ∈ s.toList.getLast?,
      isBlank c = false := by
  rw [← dropBlank_eq_self_iff, ← List.head?_reverse, ← dropBlank_eq_self_iff,
    ← String.toList_inj, trim,
    String.toList_ofList]
  have hsuffix (cs : List Char) : dropBlank cs <:+ cs := List.dropWhile_suffix _
  constructor
  · intro h
    -- what is dropped at one end is missing in the result
    have hlength : s.toList.length ≤ (dropBlank s.toList).length := by
      have := (hsuffix (dropBlank s.toList).reverse).length_le
      rwa [← List.length_reverse, h, List.length_reverse] at this
    have hfront : dropBlank s.toList = s.toList := (hsuffix _).eq_of_length_le hlength
    rw [hfront] at h
    exact ⟨hfront, List.reverse_inj.1 (by rw [h, List.reverse_reverse])⟩
  · rintro ⟨hfront, hback⟩
    rw [hfront, hback, List.reverse_reverse]

end Text

namespace Dispatch

variable {M L : Type} {g : CallGraph M L}

/-! ## The scopes with dispatchers -/

/-- The symbols that look up names at run time; `getattr` does so with two or three arguments. -/
inductive Primitive : Symbol → Prop
  | attribute {n : Int} (h : n = 2 ∨ n = 3) : Primitive ⟨"builtins", "getattr", n⟩
  | methodCaller (n : Int) : Primitive ⟨"operator", "methodcaller", n⟩
  | attributeGetter (n : Int) : Primitive ⟨"operator", "attrgetter", n⟩
  | importModule (n : Int) : Primitive ⟨"importlib", "import_module", n⟩
  | importName (n : Int) : Primitive ⟨"builtins", "__import__", n⟩
  | evaluation (n : Int) : Primitive ⟨"builtins", "eval", n⟩
  | execution (n : Int) : Primitive ⟨"builtins", "exec", n⟩

theorem isDynamic_iff {s : Symbol} : isDynamic s = true ↔ Primitive s := by
  constructor
  · intro h
    obtain ⟨scope, name, arity⟩ := s
    obtain ⟨⟨rfl, rfl⟩, harity⟩ | ⟨rfl, rfl⟩ | ⟨rfl, rfl⟩ | ⟨rfl, rfl⟩ | ⟨rfl, rfl⟩ | ⟨rfl,
        rfl⟩ | ⟨rfl, rfl⟩ := by
      simpa [isDynamic, primitives] using h
    · exact .attribute harity
    · exact .methodCaller arity
    · exact .attributeGetter arity
    · exact .importModule arity
    · exact .importName arity
    · exact .evaluation arity
    · exact .execution arity
  · rintro (⟨rfl | rfl⟩ | _ | _ | _ | _ | _ | _) <;> simp [isDynamic, primitives]

theorem mem_insertNew_iff {α : Type} [DecidableEq α] {le : α → α → Bool} {x y : α} {xs : List α} :
    y ∈ insertNew le x xs ↔ y ∈ xs ∨ y = x := by
  unfold insertNew
  split_ifs with h
  · have hx : x ∈ xs := by simpa using h
    exact ⟨.inl, fun hy => hy.elim id fun hyx => hyx ▸ hx⟩
  · rw [List.mem_mergeSort, List.mem_cons, or_comm]

theorem mem_foldl_insertNew_iff {α β : Type} [DecidableEq α] {le : α → α → Bool} {f : β → α} {y : α}
    {ys : List β} {xs : List α} : y ∈ ys.foldl (fun xs b => insertNew le (f b) xs) xs ↔
      y ∈ xs ∨ ∃ b ∈ ys, y = f b := by
  induction ys generalizing xs with
  | nil => simp
  | cons b ys ih => simp [ih, mem_insertNew_iff, or_assoc]

theorem mem_callers_iff {s : Symbol} :
    s ∈ callers g ↔ ∃ callee, (s, callee) ∈ g.edges ∧ g.isDefined s = true ∧ Primitive callee := by
  simp [callers, isDynamic_iff]

/-- The scopes that are reported are those of the defined callers of primitives. -/
theorem reported_iff {scope : String} : (∃ found, (scope, found) ∈ dispatchers g) ↔
    ∃ caller callee, (caller, callee) ∈ g.edges ∧ g.isDefined caller = true ∧ Primitive callee ∧
      caller.scope = scope := by
  have hscope : (∃ found, (scope, found) ∈ dispatchers g) ↔ ∃ caller ∈ callers g,
      caller.scope = scope := by
    simp [dispatchers, List.foldl_map, mem_foldl_insertNew_iff]
  rw [hscope]
  simp only [mem_callers_iff]
  constructor
  · rintro ⟨caller, ⟨callee, hedge, hdefined, hprimitive⟩, rfl⟩
    exact ⟨caller, callee, hedge, hdefined, hprimitive, rfl⟩
  · rintro ⟨caller, callee, hedge, hdefined, hprimitive, rfl⟩
    exact ⟨caller, ⟨callee, hedge, hdefined, hprimitive⟩, rfl⟩

/-! ## What an entry reads -/

open Ignore Text

/-- A text that an entry reads as it stands: it is neither empty nor a wildcard nor a pattern. -/
structure Plain (s : String) : Prop where
  ne_empty : s ≠ ""
  ne_underscore : s ≠ "_"
  ne_asterisk : s ≠ "*"
  not_pattern : ∀ source, ¬ WritesPattern s source

variable (pattern : String → Library.Answer String Pattern)

/-- The condition as which an entry reads a scope. -/
inductive ReadsAs (scope : String) : TextField → Prop
  | wildcard (h : trim scope = "_" ∨ trim scope = "*") : ReadsAs scope .any
  | pattern {source : String} {p : Pattern} (h : WritesPattern (trim scope) source)
    (hp : pattern source = .ok p) : ReadsAs scope (.pattern p)
  | plain (h : Plain (trim scope)) : ReadsAs scope (.exact (trim scope))

variable {pattern}

theorem compileText_eq_ok_iff {scope what : String} {given : Setting} {field : TextField} :
    compileText pattern (.str scope) given what = .ok field ↔ ReadsAs pattern scope field := by
  constructor
  · intro h
    by_cases hwild : isWildcard (trim scope) = true
    · obtain rfl : TextField.any = field := by simpa [compileText, hwild] using h
      exact .wildcard (by simpa [isWildcard] using hwild)
    cases hpattern : patternText? (trim scope) with
    | some source =>
      cases hcompiled : pattern source with
      | ok p =>
        obtain rfl : TextField.pattern p = field := by
          simpa [compileText, hwild, hpattern, hcompiled] using h
        exact .pattern (patternText?_eq_some_iff.1 hpattern) hcompiled
      | error e => cases e <;> simp [compileText, hwild, hpattern, hcompiled] at h
    | none =>
      have hne : trim scope ≠ "" := by
        intro hempty
        rw [compileText_of_flaw (.empty hempty)] at h
        cases h
      obtain rfl : TextField.exact (trim scope) = field := by
        simpa [compileText, hwild, hpattern, hne] using h
      have hwildcards : trim scope ≠ "_" ∧ trim scope ≠ "*" := by simpa [isWildcard] using hwild
      refine .plain ⟨hne, hwildcards.1, hwildcards.2, fun source hsource => ?_⟩
      rw [patternText?_of_writesPattern hsource] at hpattern
      cases hpattern
  · rintro (h | ⟨h, hp⟩ | h)
    · have hwild : isWildcard (trim scope) = true := by simpa [isWildcard] using h
      simp [compileText, hwild]
    · simp [compileText, isWildcard_of_writesPattern h, patternText?_of_writesPattern h, hp]
    · have hwild : isWildcard (trim scope) = false := by
        simp [isWildcard, h.ne_underscore, h.ne_asterisk]
      have hpattern : patternText? (trim scope) = none := by
        refine Option.eq_none_iff_forall_ne_some.2 fun source hsource => ?_
        exact h.not_pattern source (patternText?_eq_some_iff.1 hsource)
      simp [compileText, hwild, hpattern, h.ne_empty]

/-- The suggested entry is the condition on the scope, and nothing else. -/
theorem compile_suggestion_eq_ok_iff {scope : String} {spec : Spec} :
    compile pattern (suggestion scope) = .ok spec ↔
      ∃ field, ReadsAs pattern scope field ∧ spec = .scope field := by
  have hspells : Spells (suggestion scope) (.str scope) (.str "_") (.str "_") := .list₃ _ _ _
  have hname : compileText pattern (.str "_") (suggestion scope) "name" = .ok .any :=
    compileText_eq_ok_iff.2 (.wildcard (.inl (by decide)))
  have harity : compileArity (.str "_") (suggestion scope) = .ok .any :=
    compileArity_of_free (.inr ⟨"_", rfl, by decide⟩) _
  rw [hspells.compile_eq, compileFields_eq_ok_iff]
  simp only [@compileText_eq_ok_iff pattern scope, hname, harity, Except.ok.injEq]
  constructor
  · rintro ⟨field, _, _, hfield, rfl, rfl, rfl⟩
    exact ⟨field, hfield, rfl⟩
  · rintro ⟨field, hfield, rfl⟩
    exact ⟨field, .any, .any, hfield, rfl, rfl, rfl⟩

/-! ## When the entry covers its scope alone -/

variable (pattern) in
/-- The suggested entry is accepted and covers just the symbols of its scope. -/
def Precise (scope : String) : Prop :=
  ∃ spec, compile pattern (suggestion scope) = .ok spec ∧ ∀ s info, spec.matches s info =
    .ok (decide (s.scope = scope))

/-- A scope that stands for itself: it is plain, with no white space at its two ends. -/
structure Literal (scope : String) : Prop extends Plain scope where
  begins : ∀ c ∈ scope.toList.head?, isBlank c = false
  ends : ∀ c ∈ scope.toList.getLast?, isBlank c = false

variable (pattern) in
/-- A scope that is a pattern, and the only text in which this occurs. -/
def FitsItself (scope : String) : Prop :=
  ∃ source p, WritesPattern (trim scope) source ∧ pattern source = .ok p ∧
    ∀ t, p.occursIn t = true ↔ t = scope

theorem precise_iff_field {scope : String} :
    Precise pattern scope ↔ ∃ field, ReadsAs pattern scope field ∧ ∀ t, field.holds t = true ↔
      t = scope := by
  simp only [Precise, compile_suggestion_eq_ok_iff]
  constructor
  · rintro ⟨_, ⟨field, hfield, rfl⟩, hmatches⟩
    refine ⟨field, hfield, fun t => ?_⟩
    have hholds : field.holds t = decide (t = scope) := Except.ok.inj (hmatches ⟨t, "", 0⟩ none)
    simp [hholds]
  · rintro ⟨field, hfield, hholds⟩
    refine ⟨_, ⟨field, hfield, rfl⟩, fun s info => ?_⟩
    exact congrArg Except.ok (Bool.eq_iff_iff.2 ((hholds s.scope).trans decide_eq_true_iff.symm))

/-- The suggested entry does what it should for the scopes that stand for themselves, and otherwise
only for a pattern that fits itself alone. -/
theorem precise_iff {scope : String} :
    Precise pattern scope ↔ Literal scope ∨ FitsItself pattern scope := by
  rw [precise_iff_field]
  constructor
  · rintro ⟨field, hfield, hholds⟩
    cases hfield with
    | wildcard h =>
      -- a longer text is covered as well
      have hother : scope ++ "_" = scope := (hholds _).1 rfl
      simpa using congrArg String.length hother
    | pattern h hp => exact .inr ⟨_, _, h, hp, hholds⟩
    | plain h =>
      have htrim : trim scope = scope := ((hholds (trim scope)).1 (by simp [TextField.holds]))
      rw [htrim] at h
      exact .inl
        { h with begins := (trim_eq_self_iff.1 htrim).1, ends := (trim_eq_self_iff.1 htrim).2 }
  · rintro (h | ⟨source, p, hsource, hp, hfits⟩)
    · have htrim : trim scope = scope := trim_eq_self_iff.2 ⟨h.begins, h.ends⟩
      refine ⟨_, .plain (htrim.symm ▸ h.toPlain), fun t => ?_⟩
      simp [TextField.holds, htrim]
    · exact ⟨_, .pattern hsource hp, hfits⟩

/-- The name of a module stands for itself, unless it is a single underscore: no name has white
space or one of the characters in it that mean something in entries. -/
theorem literal_of_name {scope : String} (hne : scope ≠ "") (hunderscore : scope ≠ "_")
    (h : ∀ c ∈ scope.toList, isBlank c = false ∧ c ≠ '*' ∧ c ≠ ':' ∧ c ≠ '/') : Literal scope where
  ne_empty := hne
  ne_underscore := hunderscore
  ne_asterisk := by
    rintro rfl
    exact (h '*' (by decide)).2.1 rfl
  not_pattern := by
    rintro source (rfl | rfl)
    · exact (h ':' (by simp)).2.2.1 rfl
    · exact (h '/' (by simp)).2.2.2 rfl
  begins c hc := (h c (List.mem_of_mem_head? hc)).1
  ends c hc := (h c (List.mem_of_mem_getLast? hc)).1

/-- **What the suggested entries cover.** The scopes that are reported are those of the defined
callers of primitives. The entry suggested for a scope is accepted and covers just its symbols if
the scope stands for itself, as the names of modules do but for a single underscore; otherwise only
a pattern that fits itself alone has this property. A wildcard covers all symbols, and a scope of
white space alone is refused. -/
theorem suggestion_precise_iff (pattern : String → Library.Answer String Pattern)
    (g : CallGraph M L) (scope : String) :
    ((∃ found, (scope, found) ∈ dispatchers g) ↔ ∃ caller callee, (caller, callee) ∈ g.edges ∧
      g.isDefined caller = true ∧ Primitive callee ∧ caller.scope = scope) ∧
    (Precise pattern scope ↔ Literal scope ∨ FitsItself pattern scope) ∧
    (scope ≠ "" → scope ≠ "_" →
      (∀ c ∈ scope.toList, isBlank c = false ∧ c ≠ '*' ∧ c ≠ ':' ∧ c ≠ '/') →
      Literal scope) ∧
    (trim scope = "_" ∨ trim scope = "*" →
      ∃ spec, compile pattern (suggestion scope) = .ok spec ∧ ∀ s info,
        spec.matches s info = .ok true) ∧
    (trim scope = "" → compile pattern (suggestion scope) =
      .error (.invalid (.emptyText "scope") (suggestion scope))) := by
  refine ⟨reported_iff, precise_iff, literal_of_name, fun h => ?_, fun h => ?_⟩
  · exact ⟨_, compile_suggestion_eq_ok_iff.2 ⟨_, .wildcard h, rfl⟩, fun s info => rfl⟩
  · exact compile_of_flaw (.scope (.list₃ _ _ _) (.empty h))

/-- A module that is called `_` and has a function that evaluates texts. -/
def underscoreGraph : ProjectGraph :=
  { nodes := ⟨[(⟨"_", "f", 0⟩, {})]⟩, sites := ⟨[((⟨"_", "f", 0⟩, ⟨"builtins", "eval", 1⟩), [])]⟩,
    dropped := 0 }

/-- The scope `_` is reported, and the entry suggested for it covers the symbols of all scopes. -/
theorem underscore_covers_all :
    (∃ found, ("_", found) ∈ dispatchers underscoreGraph) ∧ ¬ Precise Library.readPattern "_" ∧
    ∃ spec, compile Library.readPattern (suggestion "_") = .ok spec ∧
      spec.matches ⟨"other", "g", 0⟩ none = .ok true := by
  obtain ⟨hreported, hprecise, -, hwildcard, -⟩ :=
    suggestion_precise_iff Library.readPattern underscoreGraph "_"
  refine ⟨?_, ?_, ?_⟩
  · exact hreported.2 ⟨⟨"_", "f", 0⟩, ⟨"builtins", "eval", 1⟩, by decide, by decide,
      .evaluation 1, rfl⟩
  · rw [hprecise]
    rintro (h | ⟨source, p, h, -⟩)
    · exact h.ne_underscore rfl
    · exact absurd (isWildcard_of_writesPattern h) (by decide)
  · obtain ⟨spec, hspec, hall⟩ := hwildcard (.inl (by decide))
    exact ⟨spec, hspec, hall _ _⟩

end Dispatch

end Deadwood
