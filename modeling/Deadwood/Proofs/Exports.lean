import Mathlib.Data.String.Basic
import Deadwood.Proofs.Complete
import Deadwood.Proofs.Copies

/-!
# Which definitions are exported

The exports describe each symbol as its first definition does, with one change: they say of more
definitions that they are exported.

* `FirstDefined units excluded s info`: of the definitions of `s` in units that are not excluded,
  `info` describes the first. `firstDefined_iff_inUnits` says which one that is, by the names of the
  units and the order of the facts.
* `Names target s`: a dotted name names a symbol, by its scope and name or as a class.
* `Offered`, `Opened`, `Exported`: a symbol is exported by its own description, by a module that
  offers it, or with its class.
* `exports_exact`: the exports are these symbols, described so; completing them in place, on copies,
  gives the same and leaves the facts as they are.
-/

namespace Deadwood.Project

variable {units : Units} {excluded : List String} {s : Symbol} {info : Meta}

/-! ## First definitions -/

/-- `info` describes the first definition of `s` in the units that are not excluded, taken in the
order of their names. -/
def FirstDefined (units : Units) (excluded : List String) (s : Symbol) (info : Meta) : Prop :=
  ∃ before behind, definitionsOf units excluded = before ++ (s, info) :: behind ∧
    ∀ d ∈ before, d.1 ≠ s

theorem firstDefined_iff_find? :
    FirstDefined units excluded s info ↔
      (definitionsOf units excluded).find? (·.1 = s) = some (s, info) := by
  rw [List.find?_eq_some_iff_append]
  simp [FirstDefined]

theorem find?_firstDefinitions_iff :
    (firstDefinitions (definitionsOf units excluded)).find? s = some info ↔
      FirstDefined units excluded s info := by
  have hfind : (firstDefinitions (definitionsOf units excluded)).find? s =
      ((definitionsOf units excluded).find? (·.1 = s)).map Prod.snd :=
        Table.find?_foldl_insertNew _ ∅ s
  rw [hfind, firstDefined_iff_find?, Option.map_eq_some_iff]
  constructor
  · rintro ⟨⟨s', _⟩, hs, rfl⟩
    obtain rfl : s' = s := by simpa using List.find?_some hs
    exact hs
  · exact fun hs => ⟨_, hs, rfl⟩

theorem mem_definitionsOf_kept_iff : (s, info) ∈ definitionsOf units excluded ↔
    ∃ u ∈ units.entries, u.1 ∉ excluded ∧ .definition s info ∈ u.2 := by
  simp only [definitionsOf, sortedUnits, List.mem_flatMap, List.mem_filter, List.mem_mergeSort,
    mem_definitions_iff,
    List.contains_eq_mem, Bool.not_eq_true', decide_eq_false_iff_not, and_assoc]

/-! ## First units -/

/-- `info` describes the first definition of `s` in a unit, and no unit with a smaller name defines
`s`; units that are excluded do not count. -/
def FirstInUnits (units : Units) (excluded : List String) (s : Symbol) (info : Meta) : Prop :=
  ∃ u ∈ units.entries, u.1 ∉ excluded ∧
    (∃ before behind, u.2 = before ++ .definition s info :: behind ∧
      ∀ f ∈ before, f.defined? ≠ some s) ∧
    ∀ v ∈ units.entries, v.1 ∉ excluded → v.1 < u.1 → ∀ f ∈ v.2, f.defined? ≠ some s

/-- The first definition among facts. -/
theorem find?_definitions_iff {facts : List Fact} :
    (Fact.definitions facts).find? (·.1 = s) = some (s, info) ↔
      ∃ before behind, facts = before ++ .definition s info :: behind ∧ ∀ f ∈ before,
        f.defined? ≠ some s := by
  have hfind : (Fact.definitions facts).find? (·.1 = s) =
      (facts.find? fun f => f.defined? = some s).bind fun f => (Fact.definitions [f]).head? := by
    induction facts with
    | nil => rfl
    | cons f rest ih =>
      rw [List.find?_cons]
      cases f with
      | definition s' info' =>
        rw [show Fact.definitions (.definition s' info' :: rest) =
          (s', info') :: Fact.definitions rest from rfl,
          List.find?_cons]
        by_cases hs : s' = s
        · simp [hs, Fact.defined?, Fact.definitions]
        · simp [hs, Fact.defined?, ih]
      | call caller callee site => exact ih
  rw [hfind, Option.bind_eq_some_iff]
  constructor
  · rintro ⟨f, hf, hhead⟩
    obtain ⟨-, before, behind, rfl, hbefore⟩ := List.find?_eq_some_iff_append.1 hf
    cases f with
    | definition s' info' =>
      cases hhead
      exact ⟨before, behind, rfl, by simpa using hbefore⟩
    | call => cases hhead
  · rintro ⟨before, behind, rfl, hbefore⟩
    refine ⟨.definition s info, List.find?_eq_some_iff_append.2 ⟨?_, before, behind, rfl, ?_⟩, rfl⟩
    · simp [Fact.defined?]
    · simpa using hbefore

theorem find?_definitions_eq_none_iff {facts : List Fact} :
    (Fact.definitions facts).find? (·.1 = s) = none ↔ ∀ f ∈ facts, f.defined? ≠ some s := by
  rw [List.find?_eq_none]
  constructor
  · intro h f hf hs
    cases f with
    | definition s' info' =>
      cases hs
      exact h (s, info') (mem_definitions_iff.2 hf) (by simp)
    | call => cases hs
  · rintro h ⟨s', info'⟩ hd hs
    obtain rfl : s' = s := by simpa using hs
    exact h _ (mem_definitions_iff.1 hd) rfl

/-- The units that are not excluded, in the order of their names. -/
def keptUnits (units : Units) (excluded : List String) : List (String × List Fact) :=
  (sortedUnits units).filter fun u => !excluded.contains u.1

theorem mem_keptUnits_iff {u : String × List Fact} :
    u ∈ keptUnits units excluded ↔ u ∈ units.entries ∧ u.1 ∉ excluded := by
  simp [keptUnits, sortedUnits]

theorem pairwise_keptUnits (excluded : List String) (hunits : units.keys.Nodup) :
    (keptUnits units excluded).Pairwise fun u v => u.1 < v.1 :=
  (pairwise_lt_sortBy Prod.fst hunits).filter _

/-- Where each unit has one list of facts, the first definition stands in the first unit that has
any. -/
theorem firstDefined_iff_inUnits (hunits : units.keys.Nodup) :
    FirstDefined units excluded s info ↔ FirstInUnits units excluded s info := by
  have hflat : definitionsOf units excluded = (keptUnits units excluded).flatMap fun u =>
    Fact.definitions u.2 := rfl
  have hsorted := pairwise_keptUnits excluded hunits
  rw [firstDefined_iff_find?, hflat, List.find?_flatMap, List.findSome?_eq_some_iff]
  constructor
  · rintro ⟨before, u, behind, hsplit, hu, hbefore⟩
    have hmem : ∀ v, v ∈ before ++ u :: behind ↔ v ∈ units.entries ∧ v.1 ∉ excluded := by
      intro v
      rw [← hsplit, mem_keptUnits_iff]
    obtain ⟨hunit, hkept⟩ := (hmem u).1 (List.mem_append_right _ List.mem_cons_self)
    refine ⟨u, hunit, hkept, find?_definitions_iff.1 hu, fun v hv hvkept hlt => ?_⟩
    rw [hsplit] at hsorted
    have hbehind := (List.pairwise_cons.1 (List.pairwise_append.1 hsorted).2.1).1
    rcases List.mem_append.1 ((hmem v).2 ⟨hv, hvkept⟩) with hv | hv
    · exact find?_definitions_eq_none_iff.1 (hbefore v hv)
    · rcases List.mem_cons.1 hv with rfl | hv
      · exact absurd hlt (lt_irrefl _)
      · exact absurd (hbehind v hv) (lt_asymm hlt)
  · rintro ⟨u, hunit, hkept, hfirst, hsmaller⟩
    obtain ⟨before, behind, hsplit⟩ := List.append_of_mem (mem_keptUnits_iff.2 ⟨hunit, hkept⟩)
    refine ⟨before, u, behind, hsplit, find?_definitions_iff.2 hfirst, fun v hv => ?_⟩
    have hvkept :=
      mem_keptUnits_iff.1 (hsplit ▸ List.mem_append_left _ hv : v ∈ keptUnits units excluded)
    rw [hsplit] at hsorted
    have hlt := (List.pairwise_append.1 hsorted).2.2 v hv u List.mem_cons_self
    exact find?_definitions_eq_none_iff.2 (hsmaller v hvkept.1 hvkept.2 hlt)

/-! ## Who is exported -/

/-- A dotted name names the symbols with its last segment as their name and what stands before it as
their scope, and the class that is so called. -/
inductive Names : String → Symbol → Prop
  | below {scope name : String} (arity : Int) (h : Dotted.Simple name) :
    Names (Dotted.below scope name) ⟨scope, name, arity⟩
  | simple {name : String} (arity : Int) (h : Dotted.Simple name) : Names name ⟨"", name, arity⟩
  | class (scope : String) : Names scope (.classOf scope)

theorem names_iff {target : String} : names target s = true ↔ Names target s := by
  obtain ⟨scope, name, arity⟩ := s
  simp only [names, Bool.or_eq_true, decide_eq_true_eq]
  constructor
  · rintro (hcut | hclass)
    · rcases Dotted.simple_or_below target with h | ⟨p, n, h, rfl⟩
      · rw [Dotted.cut_of_simple h] at hcut
        cases hcut
        exact .simple arity h
      · rw [Dotted.cut_below h] at hcut
        cases hcut
        exact .below arity h
    · rw [hclass]
      exact .class target
  · intro h
    cases h with
    | below _ h => exact .inl (Dotted.cut_below h).symm
    | simple _ h => exact .inl (Dotted.cut_of_simple h).symm
    | «class» => exact .inr rfl

/-- The code of some module, as first described, offers the symbol as its own. -/
def Offered (units : Units) (excluded : List String) (s : Symbol) : Prop :=
  ∃ body info target, FirstDefined units excluded body info ∧ body.name = Symbol.bodyName ∧
    target ∈ info.reexports ∧ Names target s

/-- The symbol is exported by its own description, or it is public and a module offers it. -/
def Opened (units : Units) (excluded : List String) (s : Symbol) (info : Meta) : Prop :=
  info.export = true ∨ info.isPublic = true ∧ Offered units excluded s

/-- The symbol is opened, or it is a public method of an opened class. -/
def Exported (units : Units) (excluded : List String) (s : Symbol) (info : Meta) : Prop :=
  Opened units excluded s info ∨ info.isPublic = true ∧ info.kind = "method" ∧
    ∃ cls, FirstDefined units excluded (.classOf s.scope) cls ∧
      Opened units excluded (.classOf s.scope) cls

/-- The descriptions after the marks of the modules. -/
def offeredMetas (units : Units) (excluded : List String) : Table Symbol Meta :=
  let metas := firstDefinitions (definitionsOf units excluded)
  markExported (fun s _ => (reexports metas).any fun t => names t s) metas

theorem any_names_iff :
    ((reexports (firstDefinitions (definitionsOf units excluded))).any fun t => names t s) = true ↔
      Offered units excluded s := by
  have hnodup := (selects_firstDefinitions (definitionsOf units excluded)).nodup
  simp only [List.any_eq_true, reexports, List.mem_flatMap, names_iff, Offered,
    ← find?_firstDefinitions_iff,
    Table.find?_eq_some_iff hnodup]
  constructor
  · rintro ⟨target, ⟨⟨body, info⟩, hbody, htarget⟩, hnames⟩
    by_cases hname : body.name = Symbol.bodyName
    · rw [if_pos hname] at htarget
      exact ⟨body, info, target, hbody, hname, htarget, hnames⟩
    · rw [if_neg hname] at htarget
      cases htarget
  · rintro ⟨body, info, target, hbody, hname, htarget, hnames⟩
    exact ⟨target, ⟨(body, info), hbody, by rwa [if_pos hname]⟩, hnames⟩

/-- Marking changes nothing in a description but the mark. -/
theorem find?_markExported_iff {p : Symbol → Meta → Bool} {metas : Table Symbol Meta} :
    (markExported p metas).find? s = some info ↔
      ∃ old, metas.find? s = some old ∧ info = { old with «export» := info.export } ∧
        (info.export = true ↔ old.export = true ∨ old.isPublic = true ∧ p s old = true) := by
  rw [find?_markExported, Option.map_eq_some_iff]
  refine exists_congr fun old => and_congr_right fun _ => ?_
  constructor
  · rintro rfl
    simp
  · rintro ⟨hinfo, hexport⟩
    rw [hinfo]
    have heq : (old.export || old.isPublic && p s old) = info.export := by
      rw [Bool.eq_iff_iff, hexport]
      simp
    rw [heq]

/-- After the marks of the modules, what is opened is exported. -/
theorem find?_offeredMetas_iff :
    (offeredMetas units excluded).find? s = some info ↔
      ∃ first, FirstDefined units excluded s first ∧ info = { first with «export» := info.export } ∧
        (info.export = true ↔ Opened units excluded s first) := by
  rw [offeredMetas, find?_markExported_iff]
  simp only [find?_firstDefinitions_iff, any_names_iff, Opened]

theorem nodup_keys_offeredMetas : (offeredMetas units excluded).keys.Nodup := by
  rw [offeredMetas, keys_markExported]
  exact (selects_firstDefinitions _).nodup

theorem mem_exportedClasses_iff {metas : Table Symbol Meta} (hn : metas.keys.Nodup) {c : String} :
    c ∈ exportedClasses metas ↔
      ∃ info, metas.find? (.classOf c) = some info ∧ info.export = true := by
  simp only [exportedClasses, List.mem_filterMap, Table.find?_eq_some_iff hn]
  constructor
  · rintro ⟨⟨⟨scope, name, arity⟩, info⟩, hmem, hsome⟩
    simp only [Option.ite_none_right_eq_some, Bool.and_eq_true, decide_eq_true_eq,
      Option.some.injEq] at hsome
    obtain ⟨⟨⟨rfl, rfl⟩, hexport⟩, rfl⟩ := hsome
    exact ⟨info, hmem, hexport⟩
  · rintro ⟨info, hmem, hexport⟩
    exact ⟨_, hmem, by simp [Symbol.classOf, hexport]⟩

/-- The classes that are exported before their methods are the ones that are opened. -/
theorem mem_exportedClasses_offered_iff {c : String} :
    c ∈ exportedClasses (offeredMetas units excluded) ↔
      ∃ cls, FirstDefined units excluded (.classOf c) cls ∧
        Opened units excluded (.classOf c) cls := by
  simp only [mem_exportedClasses_iff nodup_keys_offeredMetas, find?_offeredMetas_iff]
  constructor
  · rintro ⟨info, ⟨cls, hfirst, -, hopened⟩, hexport⟩
    exact ⟨cls, hfirst, hopened.1 hexport⟩
  · rintro ⟨cls, hfirst, hopened⟩
    exact ⟨{ cls with «export» := true }, ⟨cls, hfirst, rfl, by simpa using hopened⟩, rfl⟩

theorem find?_exports_iff :
    (exports units excluded).find? s = some info ↔
      ∃ first, FirstDefined units excluded s first ∧ info = { first with «export» := info.export } ∧
        (info.export = true ↔ Exported units excluded s first) := by
  have hpasses : exports units excluded = markExported (fun s info => info.kind = "method" &&
      (exportedClasses (offeredMetas units excluded)).contains s.scope)
        (offeredMetas units excluded) := rfl
  rw [hpasses, find?_markExported_iff]
  simp only [find?_offeredMetas_iff, Bool.and_eq_true, decide_eq_true_eq, List.contains_iff_mem,
    mem_exportedClasses_offered_iff]
  constructor
  · rintro ⟨offered, ⟨first, hfirst, hoffered, hopened⟩, hinfo, hexport⟩
    have hpublic : offered.isPublic = first.isPublic := by rw [hoffered]; rfl
    have hkind : offered.kind = first.kind := by rw [hoffered]
    refine ⟨first, hfirst, hinfo.trans (by rw [hoffered]), ?_⟩
    rw [hexport, hopened, hpublic, hkind, Exported]
  · rintro ⟨first, hfirst, hinfo, hexport⟩
    classical
    refine ⟨{ first with «export» := decide (Opened units excluded s first) },
      ⟨first, hfirst, rfl, ?_⟩, hinfo, ?_⟩
    · exact decide_eq_true_iff
    · rw [hexport, Exported, decide_eq_true_eq]
      exact Iff.rfl

theorem mem_keys_exports_iff : s ∈ (exports units excluded).keys ↔
    ∃ u ∈ units.entries, u.1 ∉ excluded ∧ ∃ info, .definition s info ∈ u.2 := by
  have hselects := selects_firstDefinitions (definitionsOf units excluded)
  rw [exports, keys_markExported, keys_markExported, Table.mem_keys_iff_find?]
  constructor
  · rintro ⟨info, hfind⟩
    obtain ⟨u, hu, hkept, hdef⟩ := mem_definitionsOf_kept_iff.1 (hselects.sound hfind)
    exact ⟨u, hu, hkept, info, hdef⟩
  · rintro ⟨u, hu, hkept, info, hdef⟩
    exact hselects.complete (mem_definitionsOf_kept_iff.2 ⟨u, hu, hkept, hdef⟩)

/-- A private symbol is described as its first definition describes it. -/
theorem find?_exports_of_private (h : FirstDefined units excluded s info)
    (hprivate : info.isPublic = false) :
    (exports units excluded).find? s = some info := by
  refine find?_exports_iff.2 ⟨info, h, rfl, ?_⟩
  simp [Exported, Opened, hprivate]

/-- **The exports of any project.** They describe exactly the symbols that units define which are
not excluded, each once and as its first definition does in all but the mark. Exported is what its
own description exports, what is public and a module offers, and the public methods of a class that
is exported in one of these two ways. A private symbol is never marked. Done in place, on copies of
the descriptions, the marks leave the descriptions that the facts hold untouched, even where several
facts share one. -/
theorem exports_exact (units : Units) (excluded : List String) :
    ((exports units excluded).keys.Nodup ∧ ∀ s, s ∈ (exports units excluded).keys ↔
      ∃ u ∈ units.entries, u.1 ∉ excluded ∧ ∃ info, .definition s info ∈ u.2) ∧
    (units.keys.Nodup → ∀ s info, FirstDefined units excluded s info ↔
      FirstInUnits units excluded s info) ∧
    (∀ s info, (exports units excluded).find? s = some info ↔
      ∃ first, FirstDefined units excluded s first ∧ info = { first with «export» := info.export } ∧
        (info.export = true ↔ Exported units excluded s first)) ∧
    (∀ s info, FirstDefined units excluded s info → info.isPublic = false →
      (exports units excluded).find? s = some info) ∧
    ∀ (memory : List Meta) (ds : List (Symbol × Nat)),
      ds.map (fun d => (d.1, memory[d.2]?)) =
        (definitionsOf units excluded).map (fun d => (d.1, some d.2)) →
        (Cells.complete memory ds).read = exports units excluded ∧
        memory <+: (Cells.complete memory ds).memory := by
  refine ⟨⟨nodup_keys_exports, fun s => mem_keys_exports_iff⟩, ?_,
    fun s info => find?_exports_iff, ?_, ?_⟩
  · exact fun hunits s info => firstDefined_iff_inUnits hunits
  · exact fun s info => find?_exports_of_private
  · exact fun memory ds => Cells.complete_spec

/-- A package that offers a class and a function of its module `core`, and descriptions of its
definitions. -/
def engineMetas : List Meta :=
  [{ kind := "module", reexports := ["pkg.core.Engine", "pkg.core.run"] }, { kind := "class" },
    { kind := "method" },
    { kind := "method", visibility := "private" }, {}]

/-- The definitions of the package; the functions `run` and `idle` share a description. -/
def engineCells : List (Symbol × Nat) :=
  [(.body "pkg", 0), (.classOf "pkg.core.Engine", 1), (⟨"pkg.core.Engine", "start", 0⟩, 2),
    (⟨"pkg.core.Engine", "_reset", 0⟩, 3), (⟨"pkg.core", "run", 1⟩, 4),
      (⟨"pkg.core", "idle", 0⟩, 4)]

/-- The units of the package. -/
def engineUnits : Units :=
  let facts := engineCells.map fun d => Fact.definition d.1 (engineMetas.getD d.2 default)
  ⟨[("pkg/__init__.py", facts.take 1), ("pkg/core.py", facts.drop 1)]⟩

/-- The module, the private method and the function that is not offered stay as they are; the class,
its public method and the function that is offered are exported. -/
theorem engine_exported :
    (Cells.complete engineMetas engineCells).read = exports engineUnits [] ∧
    engineMetas <+: (Cells.complete engineMetas engineCells).memory ∧
    (exports engineUnits []).values.map Meta.export = [false, true, true, false, true, false] := by
  have hunits : sortedUnits engineUnits = engineUnits.entries :=
    List.mergeSort_of_pairwise (by decide +kernel)
  have hcells : engineCells.map (fun d => (d.1, engineMetas[d.2]?)) =
      (definitionsOf engineUnits []).map fun d => (d.1, some d.2) := by
    rw [definitionsOf, hunits]
    rfl
  obtain ⟨hread, hmemory⟩ := (exports_exact engineUnits []).2.2.2.2 engineMetas engineCells hcells
  refine ⟨hread, hmemory, ?_⟩
  rw [exports, definitionsOf, hunits]
  decide +kernel

end Deadwood.Project
