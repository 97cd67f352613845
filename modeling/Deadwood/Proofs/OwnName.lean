import Deadwood.Proofs.Index
import Deadwood.Proofs.Search

/-!
# When a definition answers to its own name

A callee that names a definition of the project by its scope and name is resolved through the
aliases of all modules first. Where following them ends decides whether the definition is found.

* `LeadsTo ix dotted d`: looking the dotted name up finds `d`, under the name itself or along the
  classes.
* `mem_resolve_own_name_iff`: a definition is found under its own name exactly if the aliases lead
  to it. They do if every alias for a beginning of the name is idle.
* `foo_lost`: a package that takes `foo` from its module `foo` hides the function from its own name.
-/

namespace Deadwood.Project

namespace Index

variable {units : Units} {d : Symbol} {info : Meta} {dotted : String}

/-- A lookup of the dotted name finds `d`. The name ends in the name of `d`. Before that stands the
scope of `d`, or a class that hands the lookup on: to the classes built on it, and, of those that it
is built on, to the nearest that has such a method. No class does so whose name is followed by that
of another class. -/
def LeadsTo (ix : Index) (dotted : String) (d : Symbol) : Prop :=
  let c := (Dotted.cut dotted).1
  Dotted.last dotted = d.name ∧
    (c = d.scope ∨
      ix.classes.contains c = true ∧
        ¬ (ix.membersOf c d.name = [] ∧ ix.classes.contains dotted = true) ∧
        (d.scope ∈ ix.descendants c ∨
          (ix.ancestors c).find? (fun a => ix.membersOf a d.name ≠ []) = some d.scope))

theorem mem_membersOf_own_iff (hd : Defines units d info) (ho : d.Ordinary) {scope name : String} :
    d ∈ (ofUnits units).membersOf scope name ↔ scope = d.scope ∧ name = d.name := by
  rw [mem_membersOf_iff]
  constructor
  · rintro ⟨-, rfl, rfl, -⟩
    exact ⟨rfl, rfl⟩
  · rintro ⟨rfl, rfl⟩
    exact ⟨ho, rfl, rfl, info, hd⟩

/-- A class is the first of its ancestors. -/
theorem ancestors_eq_cons (ix : Index) (c : String) : ∃ rest, ix.ancestors c = c :: rest := by
  obtain ⟨newer, h⟩ := Search.suffix_visit ix.classes.keys ix.innerBases (ix.innerBases c) [c]
  exact ⟨newer.reverse, by rw [ancestors, ← h]; simp⟩

theorem mem_overriders_own_iff (hd : Defines units d info) (ho : d.Ordinary) {c name : String} :
    d ∈ (ofUnits units).overriders c name ↔
      name = d.name ∧ d.scope ∈ (ofUnits units).descendants c := by
  rw [mem_overriders_iff]
  constructor
  · rintro ⟨e, he, h⟩
    obtain ⟨rfl, hn⟩ := (mem_membersOf_own_iff hd ho).1 h
    exact ⟨hn, he⟩
  · rintro ⟨hn, he⟩
    exact ⟨d.scope, he, (mem_membersOf_own_iff hd ho).2 ⟨rfl, hn⟩⟩

theorem mem_findMethod_own_iff (hd : Defines units d info) (ho : d.Ordinary) {c name : String} :
    d ∈ (ofUnits units).findMethod c name ↔ name = d.name ∧
      ((ofUnits units).ancestors c).find? (fun a => (ofUnits units).membersOf a name ≠ []) =
        some d.scope := by
  rw [findMethod, mem_firstMembers_iff]
  constructor
  · rintro ⟨e, he, h⟩
    obtain ⟨rfl, hn⟩ := (mem_membersOf_own_iff hd ho).1 h
    exact ⟨hn, he⟩
  · rintro ⟨hn, he⟩
    exact ⟨d.scope, he, (mem_membersOf_own_iff hd ho).2 ⟨rfl, hn⟩⟩

theorem leadsTo_of_mem_resolveDotted (hd : Defines units d info) (ho : d.Ordinary)
    (h : d ∈ (ofUnits units).resolveDotted dotted (-1)) : LeadsTo (ofUnits units) dotted d := by
  rw [resolveDotted_eq] at h
  split_ifs at h with hfound hclass hdotted hclass hin
  · have hne : ¬ (ofUnits units).membersOf (Dotted.cut dotted).1 (Dotted.cut dotted).2 = [] := by
      simpa using hfound
    rcases List.mem_append.1 h with h | h
    · obtain ⟨hc, hn⟩ := (mem_membersOf_own_iff hd ho).1 h
      exact ⟨hn, .inl hc⟩
    · obtain ⟨hn, he⟩ := (mem_overriders_own_iff hd ho).1 h
      rw [hn] at hne
      exact ⟨hn, .inr ⟨hclass, fun h => hne h.1, .inl he⟩⟩
  · obtain ⟨hc, hn⟩ := (mem_membersOf_own_iff hd ho).1 (by simpa using h)
    exact ⟨hn, .inl hc⟩
  · rw [List.mem_singleton.1 h] at ho
    exact absurd rfl ho.2
  · rcases List.mem_append.1 h with h | h
    · obtain ⟨hn, he⟩ := (mem_findMethod_own_iff hd ho).1 h
      rw [hn] at he
      exact ⟨hn, .inr ⟨hclass, fun h => hdotted h.2, .inr he⟩⟩
    · obtain ⟨hn, he⟩ := (mem_overriders_own_iff hd ho).1 h
      exact ⟨hn, .inr ⟨hclass, fun h => hdotted h.2, .inl he⟩⟩
  · cases h
  · simp at hin

theorem mem_resolveDotted_of_leadsTo (hd : Defines units d info) (ho : d.Ordinary)
    (h : LeadsTo (ofUnits units) dotted d) (k : Int) :
    d ∈ (ofUnits units).resolveDotted dotted k := by
  obtain ⟨hn, h⟩ := h
  have hn : (Dotted.cut dotted).2 = d.name := hn
  rw [resolveDotted_eq, hn]
  by_cases hfound : (ofUnits units).membersOf (Dotted.cut dotted).1 d.name = []
  · rcases h with hc | ⟨hclass, hshadow, h⟩
    · have hmem := (mem_membersOf_own_iff hd ho).2 ⟨hc, rfl⟩
      rw [hfound] at hmem
      cases hmem
    · have hdotted : ¬ (ofUnits units).classes.contains dotted = true :=
        fun h => hshadow ⟨hfound, h⟩
      simp only [hfound, List.isEmpty_nil, Bool.not_true, Bool.false_eq_true, if_false,
        if_neg hdotted,
        if_pos hclass, List.mem_append]
      rcases h with h | h
      · exact .inr ((mem_overriders_own_iff hd ho).2 ⟨rfl, h⟩)
      · exact .inl ((mem_findMethod_own_iff hd ho).2 ⟨rfl, h⟩)
  · rw [if_pos (by simpa using hfound), List.mem_append]
    rcases h with hc | ⟨hclass, -, h | h⟩
    · exact .inl ((mem_membersOf_own_iff hd ho).2 ⟨hc, rfl⟩)
    · rw [if_pos hclass]
      exact .inr ((mem_overriders_own_iff hd ho).2 ⟨rfl, h⟩)
    · -- the class has such methods itself, so it is its own nearest ancestor that has
      obtain ⟨rest, hrest⟩ := ancestors_eq_cons (ofUnits units) (Dotted.cut dotted).1
      rw [hrest, List.find?_cons_of_pos (by simpa using hfound), Option.some_inj] at h
      exact .inl ((mem_membersOf_own_iff hd ho).2 ⟨h, rfl⟩)

/-- Aliases that stand for nothing or for themselves lead nowhere. -/
theorem resolveAlias_of_idle
    (h : ∀ s body, Defines units s body → s.name = Symbol.bodyName → ∀ a ∈ body.aliases.entries,
      Dotted.Encloses (Dotted.below s.scope a.1) dotted → a.2 = "" ∨
      a.2 = Dotted.below s.scope a.1) :
    (ofUnits units).resolveAlias dotted = dotted := by
  have hstep : replaceHead (ofUnits units).aliases dotted = dotted := by
    refine replaceHead_of_idle fun p target hp halias => ?_
    obtain ⟨s, body, hs, hbody, a, ha, rfl, rfl⟩ := exists_of_alias halias
    exact h s body hs hbody a ha hp
  refine followAliases_induct (· = dotted) (fun e he => ?_) _ rfl
  rw [he, hstep]

theorem leadsTo_calleeName {ix : Index} (hname : Dotted.Simple d.name) :
    LeadsTo ix (calleeName d) d := by
  unfold calleeName
  split_ifs with hscope
  · have hcut := Dotted.cut_of_simple hname
    exact ⟨congrArg Prod.snd hcut, .inl (by rw [hcut, hscope])⟩
  · have hcut : Dotted.cut (Dotted.below d.scope d.name) = (d.scope, d.name) :=
      Dotted.cut_below hname
    exact ⟨congrArg Prod.snd hcut, .inl (by rw [hcut])⟩

/-- **A definition answers to its own name exactly if the aliases lead to it**: `d` is among what a
mention and every call of its own name resolve to if and only if the dotted name at which the
aliases end leads to `d`. A name of one segment is not led away if every alias for a beginning of it
stands for nothing or for itself. -/
theorem mem_resolve_own_name_iff (units : Units) (d : Symbol) (info : Meta)
    (hd : Defines units d info)
    (ho : d.Ordinary) (hsuper : Text.startsWith d.scope Collect.superMark = false)
    (hany : d.scope ≠ Collect.anyScope) :
    ((∀ k < 0, d ∈ (ofUnits units).resolve ⟨d.scope, d.name, k⟩) ↔
      LeadsTo (ofUnits units) ((ofUnits units).resolveAlias (calleeName d)) d) ∧
    (Dotted.Simple d.name →
      (∀ s body, Defines units s body → s.name = Symbol.bodyName → ∀ a ∈ body.aliases.entries,
        Dotted.Encloses (Dotted.below s.scope a.1) (calleeName d) →
          a.2 = "" ∨ a.2 = Dotted.below s.scope a.1) →
      ∀ k < 0, d ∈ (ofUnits units).resolve ⟨d.scope, d.name, k⟩) := by
  have hresolve : ∀ k < 0, (ofUnits units).resolve ⟨d.scope, d.name, k⟩ =
      (ofUnits units).resolveDotted ((ofUnits units).resolveAlias (calleeName d)) k := by
    intro k hk
    rw [resolve_of_neg hk, if_neg (by simp [hsuper]), if_neg hany]
    rfl
  have hiff : (∀ k < 0, d ∈ (ofUnits units).resolve ⟨d.scope, d.name, k⟩) ↔
      LeadsTo (ofUnits units) ((ofUnits units).resolveAlias (calleeName d)) d := by
    constructor
    · intro h
      have hmention := h (-1) (by decide)
      rw [hresolve _ (by decide)] at hmention
      exact leadsTo_of_mem_resolveDotted hd ho hmention
    · intro h k hk
      rw [hresolve k hk]
      exact mem_resolveDotted_of_leadsTo hd ho h k
  refine ⟨hiff, fun hname hidle => hiff.2 ?_⟩
  rw [resolveAlias_of_idle hidle]
  exact leadsTo_calleeName hname

/-- A package that takes a function from its module of the same name. -/
def selfNamed : Units := ⟨[
  ("pkg/__init__.py", [
    .definition (.body "pkg") { kind := "module", aliases := ⟨[("foo", "pkg.foo.foo")]⟩ }]),
  ("pkg/foo.py", [
    .definition (.body "pkg.foo") { kind := "module" }, .definition ⟨"pkg.foo", "foo", 0⟩ {}])]⟩

theorem aliases_selfNamed : (ofUnits selfNamed).aliases = ⟨[("pkg.foo", "pkg.foo.foo")]⟩ := by
  have hsort : sortedUnits selfNamed = selfNamed.entries := List.mergeSort_of_pairwise (by decide)
  simp only [ofUnits, finish, definitionsOf, hsort]
  decide +kernel

/-- The alias begins its own target, so that each of the ten steps makes the name longer. -/
theorem resolveAlias_selfNamed :
    (ofUnits selfNamed).resolveAlias (calleeName ⟨"pkg.foo", "foo", 0⟩) =
    "pkg.foo.foo.foo.foo.foo.foo.foo.foo.foo.foo.foo.foo" := by
  rw [resolveAlias, aliases_selfNamed]
  decide +kernel

theorem classes_selfNamed (c : String) : ¬ (ofUnits selfNamed).classes.contains c = true := by
  rw [contains_classes_iff]
  rintro ⟨info, u, hu, h⟩
  simp only [selfNamed, List.mem_cons, List.not_mem_nil, or_false] at hu
  rcases hu with rfl | rfl <;>
    simp [Symbol.classOf, Symbol.recordName, Symbol.body, Symbol.bodyName] at h

/-- The function `foo` of the module `foo` is lost: its own name does not lead to it. -/
theorem foo_lost : Defines selfNamed ⟨"pkg.foo", "foo", 0⟩ {} ∧
      (Symbol.mk "pkg.foo" "foo" 0).Ordinary ∧
    ¬ ∀ k < 0, (⟨"pkg.foo", "foo", 0⟩ : Symbol) ∈
      (ofUnits selfNamed).resolve ⟨"pkg.foo", "foo", k⟩ := by
  have hd : Defines selfNamed ⟨"pkg.foo", "foo", 0⟩ {} :=
    ⟨_, List.mem_cons_of_mem _ List.mem_cons_self, List.mem_cons_of_mem _ List.mem_cons_self⟩
  have ho : (Symbol.mk "pkg.foo" "foo" 0).Ordinary := by decide
  refine ⟨hd, ho, fun h => ?_⟩
  have hiff := (mem_resolve_own_name_iff selfNamed _ _ hd ho (by decide) (by decide)).1
  obtain ⟨-, hscope | ⟨hclass, -⟩⟩ := hiff.1 h
  · rw [resolveAlias_selfNamed] at hscope
    revert hscope
    decide +kernel
  · exact classes_selfNamed _ hclass

end Index

end Deadwood.Project
