import Mathlib.Order.WellFounded
import Mathlib.Tactic.Tauto
import Deadwood.Analysis.Check
import Deadwood.Proofs.Dotted
import Deadwood.Proofs.Reach

/-!
# Definitions that could be private

The check `Check.narrowable` reports a public definition that is called, but only from inside its
scope. Whether a caller is inside is found out by leaving the classes around it, one by one, until
the scope is met: as long as the name of the class begins with the scope and a dot, and the class is
defined.

* `Inside g scope inner`: the name `inner` is `scope` followed by the names of nested classes, each
  of them defined. This is what the search decides (`within_iff`), for every text that a scope may
  be.
* `LeftFor`: one round of the search. There are no endless searches (`wellFounded_leftFor`), because
  a text that begins with another one and a dot has a dot to be cut at.
* `narrowable_exact`: what the check reports.
-/

namespace Deadwood.Dotted

theorem join_singleton (s : String) : join [s] = s := by simp [join]

theorem join_cons_concat (s : String) (names : List String) (name : String) :
    join (s :: (names ++ [name])) = below (join (s :: names)) name := by
  have happend := join_append (List.cons_ne_nil s names) (List.cons_ne_nil name [])
  rwa [join_singleton] at happend

/-- A name with further segments begins with the name and a dot. -/
theorem startsWith_join {s : String} {names : List String} (h : names ≠ []) :
    Text.startsWith (join (s :: names)) (s ++ ".") = true := by
  have happend : join (s :: names) = below s (join names) := by
    have := join_append (List.cons_ne_nil s []) h
    rwa [join_singleton] at this
  rw [Text.startsWith, List.isPrefixOf_iff_prefix, happend, toList_below]
  exact ⟨(join names).toList, by simp⟩

/-- A name that begins with another one and a dot has a last segment. -/
theorem exists_below_of_startsWith {s scope : String}
    (h : Text.startsWith s (scope ++ ".") = true) :
    ∃ p n, Simple n ∧ s = below p n := by
  rcases simple_or_below s with hs | hs
  · obtain ⟨rest, hrest⟩ := List.isPrefixOf_iff_prefix.1 h
    have hdot : '.' ∈ s.toList := by
      rw [← hrest]
      simp
    exact absurd hdot hs
  · exact hs

end Deadwood.Dotted

namespace Deadwood.Analysis.Context

open CallGraph

/-! ## Classes inside a scope -/

section Inside

variable {g : ProjectGraph} {scope inner : String}

/-- All classes are defined on the way from `scope` through the nested `names`. -/
def Nested (g : ProjectGraph) (scope : String) (names : List String) : Prop :=
  (∀ a ∈ names, Dotted.Simple a) ∧
    ∀ k, 0 < k → k ≤ names.length →
      g.isDefined (.classOf (Dotted.join (scope :: names.take k))) = true

/-- `inner` is `scope`, or a class that lies in it through nested classes. -/
def Inside (g : ProjectGraph) (scope inner : String) : Prop :=
  inner = scope ∨ ∃ names, names ≠ [] ∧ inner = Dotted.join (scope :: names) ∧ Nested g scope names

theorem nested_nil (g : ProjectGraph) (scope : String) : Nested g scope [] := by
  refine ⟨by simp, fun k hk hle => ?_⟩
  simp only [List.length_nil] at hle
  omega

theorem nested_concat_iff {names : List String} {name : String} : Nested g scope (names ++ [name]) ↔
    Nested g scope names ∧ Dotted.Simple name ∧
      g.isDefined (.classOf (Dotted.join (scope :: (names ++ [name])))) = true := by
  have htake : ∀ k ≤ names.length, (names ++ [name]).take k = names.take k := fun k hk =>
    List.take_append_of_le_length hk
  constructor
  · rintro ⟨hsimple, hdefined⟩
    refine ⟨⟨fun a ha => hsimple a (by simp [ha]), fun k hpos hk => ?_⟩, hsimple name (by simp), ?_⟩
    · rw [← htake k hk]
      exact hdefined k hpos (by simp; omega)
    · have hall := hdefined (names.length + 1) (by omega) (by simp)
      rwa [List.take_of_length_le (by simp)] at hall
  · rintro ⟨⟨hsimple, hdefined⟩, hname, hall⟩
    refine ⟨fun a ha => ?_, fun k hpos hk => ?_⟩
    · rcases List.mem_append.1 ha with ha | ha
      · exact hsimple a ha
      · rwa [List.mem_singleton.1 ha]
    · rw [List.length_append, List.length_singleton] at hk
      rcases Nat.lt_or_ge names.length k with hlt | hle
      · rwa [List.take_of_length_le (by simp; omega)]
      · rw [htake k hle]
        exact hdefined k hpos hle

/-- `Inside` without the case of no nested class. -/
theorem inside_iff : Inside g scope inner ↔
    ∃ names, inner = Dotted.join (scope :: names) ∧ Nested g scope names := by
  constructor
  · rintro (rfl | ⟨names, -, hinner, hnested⟩)
    · exact ⟨[], (Dotted.join_singleton inner).symm, nested_nil g inner⟩
    · exact ⟨names, hinner, hnested⟩
  · rintro ⟨names, hinner, hnested⟩
    rcases eq_or_ne names [] with rfl | hne
    · exact .inl (hinner.trans (Dotted.join_singleton scope))
    · exact .inr ⟨names, hne, hinner, hnested⟩

/-- A class is inside a scope if and only if it is one by its name and what is around it is
inside. -/
theorem inside_iff_of_ne (hne : inner ≠ scope) :
    Inside g scope inner ↔
      isClassInside g scope inner = true ∧ Inside g scope (Dotted.cut inner).1 := by
  rw [isClassInside, Bool.and_eq_true]
  constructor
  · rintro (heq | ⟨names, hnames, rfl, hnested⟩)
    · exact absurd heq hne
    · obtain ⟨outer, name, rfl⟩ := (List.eq_nil_or_concat' names).resolve_left hnames
      obtain ⟨houter, hsimple, hdefined⟩ := nested_concat_iff.1 hnested
      refine ⟨⟨Dotted.startsWith_join hnames, hdefined⟩, inside_iff.2 ⟨outer, ?_, houter⟩⟩
      rw [Dotted.join_cons_concat, Dotted.cut_below hsimple]
  · rintro ⟨⟨hstarts, hdefined⟩, hinside⟩
    obtain ⟨p, name, hsimple, rfl⟩ := Dotted.exists_below_of_startsWith hstarts
    rw [Dotted.cut_below hsimple] at hinside
    obtain ⟨outer, rfl, houter⟩ := inside_iff.1 hinside
    rw [← Dotted.join_cons_concat] at hdefined ⊢
    exact inside_iff.2 ⟨_, rfl, nested_concat_iff.2 ⟨houter, hsimple, hdefined⟩⟩

/-- **The search finds out what is inside**, for any two texts. -/
theorem within_iff (g : ProjectGraph) (inner scope : String) :
    within g inner scope = true ↔ Inside g scope inner := by
  fun_induction within g inner scope with
  | case1 => exact ⟨fun _ => .inl rfl, fun _ => rfl⟩
  | case2 inner hne hclass ih => rw [ih, inside_iff_of_ne hne, and_iff_right hclass]
  | case3 inner hne hclass =>
    rw [inside_iff_of_ne hne]
    exact ⟨fun h => (by cases h), fun h => absurd h.1 hclass⟩

/-- One round of the search for `scope`: the class `inner` is left for what is around it. -/
def LeftFor (g : ProjectGraph) (scope inner outer : String) : Prop :=
  inner ≠ scope ∧ isClassInside g scope inner = true ∧ outer = (Dotted.cut inner).1

/-- **The search ends**: there are no endless rounds. -/
theorem wellFounded_leftFor (g : ProjectGraph) (scope : String) :
    WellFounded fun outer inner => LeftFor g scope inner outer := by
  refine Subrelation.wf ?_ (measure fun s : String => s.toList.length).wf
  rintro outer inner ⟨-, hclass, rfl⟩
  exact length_cut_lt_of_isClassInside hclass

end Inside

/-! ## Findings -/

variable {ctx : Context} {s : Symbol}

/-- A definition that may be an entry point is exempt, if such definitions are. -/
def Exempt (ctx : Context) (s : Symbol) : Prop :=
  ctx.exemptLikelyRoots = true ∧ ∃ o, ctx.guess = some o ∧ o s (ctx.describe s) = true

/-- Something else calls the symbol, and whatever does is inside its scope. -/
def UsedInside (g : ProjectGraph) (s : Symbol) : Prop :=
  (∃ c ∈ g.callers s, c ≠ s) ∧ ∀ c ∈ g.callers s, c ≠ s → Inside g s.scope c.scope

theorem isNarrowable_iff : ctx.isNarrowable s = true ↔
    s.name ≠ Symbol.bodyName ∧ (ctx.describe s).isPublic = true ∧ (ctx.describe s).export = false ∧
      (ctx.describe s).generated = false ∧ ¬ ctx.Exempt s ∧ UsedInside ctx.graph s := by
  have hexempt : (!(ctx.exemptLikelyRoots && ctx.guess.any fun o => o s (ctx.describe s))) = true ↔
      ¬ ctx.Exempt s := by
    rw [Bool.not_eq_true', ← Bool.not_eq_true, Bool.and_eq_true, Option.any_eq_true]
    rfl
  have hcalled : (!((ctx.graph.callers s).filter (· ≠ s)).isEmpty) = true ↔
      ∃ c ∈ ctx.graph.callers s, c ≠ s := by
    simp
  have hinside :
    (((ctx.graph.callers s).filter (· ≠ s)).all fun c => within ctx.graph c.scope s.scope) = true ↔
      ∀ c ∈ ctx.graph.callers s, c ≠ s → Inside ctx.graph s.scope c.scope := by
    simp only [List.all_eq_true, List.mem_filter, decide_eq_true_eq, within_iff, and_imp]
  have hbody : reportable s = true ↔ s.name ≠ Symbol.bodyName := by simp [reportable]
  simp only [isNarrowable, Bool.and_eq_true, hexempt, hcalled, hinside, hbody,
    Bool.not_eq_true', UsedInside]
  tauto

/-- **What could be private.** For any graph, descriptions, guess and flag the check ends, and it
reports a symbol if and only if that is a definition other than a module's own code that is public,
neither exported nor generated and not exempt as a probable entry point, that has a caller other
than itself, and all of whose other callers, defined or not, stand in its scope or in classes nested
in it. -/
theorem narrowable_exact (ctx : Context) :
    (∀ scope, WellFounded fun outer inner => LeftFor ctx.graph scope inner outer) ∧
    ∀ s, (∃ f ∈ ctx.narrowable, f.symbol = s) ↔
      ctx.graph.isDefined s = true ∧ s.name ≠ Symbol.bodyName ∧ (ctx.describe s).isPublic = true ∧
        (ctx.describe s).export = false ∧ (ctx.describe s).generated = false ∧
        ¬ (ctx.exemptLikelyRoots = true ∧ ∃ o, ctx.guess = some o ∧ o s (ctx.describe s) = true) ∧
        (∃ c ∈ ctx.graph.callers s, c ≠ s) ∧
        ∀ c ∈ ctx.graph.callers s, c ≠ s → c.scope = s.scope ∨
          ∃ names, names ≠ [] ∧ c.scope = Dotted.join (s.scope :: names) ∧
            (∀ a ∈ names, Dotted.Simple a) ∧
            ∀ k, 0 < k → k ≤ names.length →
              ctx.graph.isDefined (.classOf (Dotted.join (s.scope :: names.take k))) = true := by
  refine ⟨wellFounded_leftFor ctx.graph, fun s => ?_⟩
  have hreported : (∃ f ∈ ctx.narrowable, f.symbol = s) ↔ ctx.graph.isDefined s = true ∧
      ctx.isNarrowable s = true := by
    simp only [narrowable, List.mem_map, List.mem_filter, ← isDefined_iff]
    constructor
    · rintro ⟨f, ⟨t, ht, rfl⟩, rfl⟩
      exact ht
    · exact fun h => ⟨_, ⟨s, h, rfl⟩, rfl⟩
  rw [hreported, isNarrowable_iff]
  exact Iff.rfl

end Deadwood.Analysis.Context
