import Deadwood.Project.Result
import Deadwood.Proofs.Build
import Deadwood.Proofs.Emitted
import Deadwood.Proofs.Statement

/-!
# No fact is lost on the way to the graph

Between the sources of a project and its call graph stand four steps: collecting, linking,
completing the exports and building. Building leaves out what is malformed and counts definitions of
one symbol that contradict each other. For what the other three steps hand over neither happens: the
facts of a module are well formed, linking keeps them so, and all definitions of a symbol get the
one description that the exports have for it.

* `Proper facts`: well-formed facts of which no two definitions contradict each other.
* `exists_export`, `defines_of_export`: what the exports describe.
* `proper_allFacts`: what is handed over to the builder.
* `graphOf_complete`: nothing is left out, and the nodes of the graph are what the exports describe.
-/

namespace Deadwood

namespace CallGraph

/-- Definitions of one symbol that all stand at one place are never in conflict. -/
theorem conflicts_eq {ds more : List (Symbol × Meta)} {t : Table Symbol Meta}
    (h : Earliest ds t) (n : Nat)
    (hsame : ∀ s a b, (s, a) ∈ ds ++ more → (s, b) ∈ ds ++ more → a.location = b.location) :
    (more.foldl keepProper (t, n)).2 = n := by
  induction more generalizing ds t n with
  | nil => rfl
  | cons d rest ih =>
    have hn : (keepProper (t, n) d).2 = n := by
      have hd : d ∈ ds ++ d :: rest := List.mem_append_right _ List.mem_cons_self
      rcases keepProper_cases (t, n) d with
        ⟨-, hstep⟩ | ⟨old, hold, ⟨-, hstep⟩ | ⟨hne, -, hstep⟩ | ⟨hne, -, hstep⟩⟩
      · rw [hstep]
      · rw [hstep]
      all_goals
        exact absurd (hsame d.1 old d.2 (List.mem_append_left _ (h.earliest hold).1) hd) hne
    have hrest := ih (h.keep n d) (keepProper (t, n) d).2 (by simpa using hsame)
    rw [List.foldl_cons]
    exact hrest.trans hn

end CallGraph

open CallGraph

/-! ## Facts as records -/

namespace Record

theorem valid?_some {s : Symbol} (h : s.Valid) : valid? (some s) = some s := by
  simp [valid?, h]

theorem isMalformed_ofFact {f : Fact} (h : f.Valid) : (ofFact f).isMalformed = false := by
  cases f with
  | definition s info => simp [ofFact, isMalformed, valid?_some h]
  | call caller callee site => simp [ofFact, isMalformed, valid?_some h.1, valid?_some h.2]

variable {facts : List Fact} (hvalid : ∀ f ∈ facts, f.Valid)

include hvalid

theorem countP_isMalformed : (facts.map ofFact).countP isMalformed = 0 := by
  rw [List.countP_map, List.countP_eq_zero]
  intro f hf
  simp [isMalformed_ofFact (hvalid f hf)]

theorem mem_definitions_ofFact {s : Symbol} {info : Meta} :
    (s, info) ∈ definitions (facts.map ofFact) ↔ .definition s info ∈ facts := by
  rw [definitions, List.filterMap_map, List.mem_filterMap]
  constructor
  · rintro ⟨f, hf, h⟩
    cases f with
    | definition s' info' =>
      have hs : s'.Valid := hvalid _ hf
      simp only [Function.comp, ofFact, definition?, valid?_some hs] at h
      cases h
      exact hf
    | call => cases h
  · intro hf
    have hs : s.Valid := hvalid _ hf
    exact ⟨_, hf, by simp [ofFact, definition?, valid?_some hs]⟩

theorem mem_calls_ofFact {caller callee : Symbol} {site : Location} :
    ((caller, callee), site) ∈ calls (facts.map ofFact) ↔ .call caller callee site ∈ facts := by
  rw [calls, List.filterMap_map, List.mem_filterMap]
  constructor
  · rintro ⟨f, hf, h⟩
    cases f with
    | definition => cases h
    | call caller' callee' site' =>
      obtain ⟨hcaller, hcallee⟩ : caller'.Valid ∧ callee'.Valid := hvalid _ hf
      simp only [Function.comp, ofFact, call?, valid?_some hcaller, valid?_some hcallee] at h
      cases h
      exact hf
  · intro hf
    obtain ⟨hcaller, hcallee⟩ : caller.Valid ∧ callee.Valid := hvalid _ hf
    exact ⟨_, hf, by simp [ofFact, call?, valid?_some hcaller, valid?_some hcallee]⟩

end Record

/-- Facts that a graph keeps all of: they are well formed, and definitions of one symbol agree. -/
structure Fact.Proper (facts : List Fact) : Prop where
  valid : ∀ f ∈ facts, f.Valid
  agree : ∀ s a b, .definition s a ∈ facts → .definition s b ∈ facts → a = b

namespace Fact.Proper

variable {facts : List Fact}

theorem dropped_eq_zero (h : Fact.Proper facts) : (ProjectGraph.ofFacts facts).dropped = 0 := by
  have heq : ProjectGraph.ofFacts facts = .ofRecords (facts.map Record.ofFact) := rfl
  rw [heq, (ProjectGraph.parts_ofRecords _).2.2, Record.countP_isMalformed h.valid, Nat.zero_add]
  refine conflicts_eq .empty 0 fun s a b ha hb => congrArg Meta.location (h.agree s a b ?_ ?_)
  · exact (Record.mem_definitions_ofFact h.valid).1 ha
  · exact (Record.mem_definitions_ofFact h.valid).1 hb

theorem find?_nodes_iff (h : Fact.Proper facts) {s : Symbol} {info : Meta} :
    (ProjectGraph.ofFacts facts).nodes.find? s = some info ↔ .definition s info ∈ facts := by
  have hg : Represents (facts.map Record.ofFact) (.ofFacts facts) := represents_ofRecords _
  constructor
  · intro hfind
    exact (Record.mem_definitions_ofFact h.valid).1 (hg.definitions.earliest hfind).1
  · intro hmem
    obtain ⟨kept, hkept⟩ := hg.definitions.complete ((Record.mem_definitions_ofFact h.valid).2 hmem)
    have hkept' := (Record.mem_definitions_ofFact h.valid).1 (hg.definitions.earliest hkept).1
    rw [hkept, h.agree s kept info hkept' hmem]

theorem mem_callees_iff (h : Fact.Proper facts) {caller callee : Symbol} :
    callee ∈ (ProjectGraph.ofFacts facts).callees caller ↔
      ∃ site, .call caller callee site ∈ facts := by
  have hg : Represents (facts.map Record.ofFact) (.ofFacts facts) := represents_ofRecords _
  rw [CallGraph.mem_callees_iff, hg.mem_edges_iff]
  exact exists_congr fun site => Record.mem_calls_ofFact h.valid

theorem exists_places (h : Fact.Proper facts) {caller callee : Symbol} {site : Location}
    (hmem : .call caller callee site ∈ facts) :
    ∃ places, (ProjectGraph.ofFacts facts).sites.find? (caller, callee) = some places ∧
      site ∈ places := by
  have hg : Represents (facts.map Record.ofFact) (.ofFacts facts) := represents_ofRecords _
  have hcall := (Record.mem_calls_ofFact h.valid).2 hmem
  obtain ⟨places, hplaces⟩ := Table.mem_keys_iff_find?.1 (hg.calls.edges.2 ⟨site, hcall⟩)
  exact ⟨places, hplaces, ((hg.calls.places hplaces).2 site).2 hcall⟩

end Fact.Proper

namespace Project

/-! ## What the exports describe -/

variable {units : Units} {excluded : List String}

theorem definitionsOf_eq (h : ∀ u ∈ units.entries, u.1 ∉ excluded) :
    definitionsOf units excluded = definitionsOf units [] := by
  have hall : ∀ u ∈ sortedUnits units, (!excluded.contains u.1) = true := by
    intro u hu
    have hu' := h u (List.mem_mergeSort.1 hu)
    simpa using hu'
  rw [definitionsOf, List.filter_eq_self.2 hall, definitionsOf, List.filter_eq_self.2 (by simp)]

/-- The definitions of `ds` as a table has them: for every symbol one of its definitions. -/
structure Selects (ds : List (Symbol × Meta)) (t : Table Symbol Meta) : Prop where
  nodup : t.keys.Nodup
  sound : ∀ {s info}, t.find? s = some info → (s, info) ∈ ds
  complete : ∀ {s info}, (s, info) ∈ ds → ∃ kept, t.find? s = some kept

theorem Selects.insertNew {ds : List (Symbol × Meta)} {t : Table Symbol Meta} (h : Selects ds t)
    (d : Symbol × Meta) : Selects (ds ++ [d]) (t.insertNew d.1 d.2) where
  nodup := Table.nodup_keys_update h.nodup _ _
  sound := by
    intro s info hfind
    rw [Table.insertNew, Table.find?_update] at hfind
    rw [List.mem_append, List.mem_singleton]
    split at hfind
    · rename_i hs
      cases hold : t.find? d.1 with
      | none =>
        rw [hold] at hfind
        cases hfind
        exact .inr (Prod.ext hs rfl)
      | some old =>
        rw [hold] at hfind
        cases hfind
        exact .inl (h.sound (hs ▸ hold))
    · exact .inl (h.sound hfind)
  complete := by
    intro s info hmem
    rw [Table.insertNew, Table.find?_update]
    split
    · exact ⟨_, rfl⟩
    · rename_i hs
      rcases List.mem_append.1 hmem with hmem | hmem
      · exact h.complete hmem
      · obtain rfl := List.mem_singleton.1 hmem
        exact absurd rfl hs

theorem selects_foldl {ds : List (Symbol × Meta)} {t : Table Symbol Meta} (h : Selects ds t)
    (more : List (Symbol × Meta)) :
    Selects (ds ++ more) (more.foldl (fun t d => t.insertNew d.1 d.2) t) := by
  induction more generalizing ds t with
  | nil => simpa using h
  | cons d rest ih => simpa using ih (h.insertNew d)

theorem selects_firstDefinitions (ds : List (Symbol × Meta)) :
    Selects ds (firstDefinitions ds) := by
  have hempty : Selects [] ∅ := ⟨List.nodup_nil, nofun, nofun⟩
  exact selects_foldl hempty ds

theorem keys_markExported (p : Symbol → Meta → Bool) (metas : Table Symbol Meta) :
    (markExported p metas).keys = metas.keys := by
  simp [markExported, Table.keys]

theorem find?_markExported (p : Symbol → Meta → Bool) (metas : Table Symbol Meta) (s : Symbol) :
    (markExported p metas).find? s = (metas.find? s).map fun info =>
      { info with «export» := info.export || info.isPublic && p s info } := by
  simp only [Table.find?, markExported, List.find?_map, Option.map_map]
  change Option.map _ (metas.entries.find? (·.1 = s)) = _
  refine Option.map_congr fun e he => ?_
  have hs : e.1 = s := by simpa using List.find?_some he
  subst hs
  simp only [Function.comp]
  cases e.2.isPublic && p e.1 e.2 <;> simp

/-- The exports differ from the first definitions in nothing but what is marked as exported. -/
theorem find?_exports (units : Units) (excluded : List String) (s : Symbol) : ∃ mark : Meta → Bool,
    (exports units excluded).find? s =
      ((firstDefinitions (definitionsOf units excluded)).find? s).map fun info =>
        { info with «export» := mark info } := by
  unfold exports
  rw [find?_markExported, find?_markExported, Option.map_map]
  exact ⟨_, rfl⟩

theorem nodup_keys_exports : (exports units excluded).keys.Nodup := by
  unfold exports
  rw [keys_markExported, keys_markExported]
  exact (selects_firstDefinitions _).nodup

section

variable (hunits : ∀ u ∈ units.entries, u.1 ∉ excluded) {s : Symbol} {info : Meta}

include hunits

/-- Every symbol that is defined is described. -/
theorem exists_export (h : Defines units s info) :
    ∃ info', (exports units excluded).find? s = some info' := by
  obtain ⟨mark, hmark⟩ := find?_exports units excluded s
  rw [hmark, definitionsOf_eq hunits]
  obtain ⟨kept, hkept⟩ := (selects_firstDefinitions _).complete (mem_definitionsOf_iff.2 h)
  exact ⟨_, by rw [hkept]; rfl⟩

/-- A description is that of a definition, apart from the mark. -/
theorem defines_of_export (h : (exports units excluded).find? s = some info) :
    ∃ old, Defines units s old ∧ info = { old with «export» := info.export } := by
  obtain ⟨mark, hmark⟩ := find?_exports units excluded s
  rw [hmark, definitionsOf_eq hunits] at h
  obtain ⟨old, hold, rfl⟩ := Option.map_eq_some_iff.1 h
  exact ⟨old, mem_definitionsOf_iff.1 ((selects_firstDefinitions _).sound hold), rfl⟩

end

/-! ## What was collected -/

variable {c : Collection}

/-- The facts were told by a tree all names in which are identifiers. -/
def OfTree (F : String → Prop) (u : Collect.UnitFacts) : Prop :=
  ∃ isPackage body, Source.Stmt.AllNamed F body ∧
    Collect.factsOf u.module u.unit isPackage body = .ok u.facts

/-- The sources of a collection are told apart by their units. -/
def UnitsDistinct (c : Collection) : Prop :=
  ((Collection.facts c).map (·.unit) ++ c.failed.map (·.1)).Nodup

theorem mem_units_iff (hc : UnitsDistinct c) {e : String × List Fact} :
    e ∈ c.units.entries ↔ ∃ u ∈ Collection.facts c, e = (u.unit, u.facts) := by
  have hnodup : (((Collection.facts c).map fun u => (u.unit, u.facts)).map (·.1)).Nodup := by
    rw [List.map_map]
    exact (List.nodup_append.1 hc).1
  rw [Collection.units, Table.ofList_of_nodup hnodup, List.mem_map]
  simp only [eq_comm]

theorem mem_link_iff {e : String × List Fact} : e ∈ (link units).entries ↔
    ∃ u ∈ units.entries, e = (u.1, linkUnit (Index.ofUnits units) u.2) := by
  simp only [link, sortedUnits, List.mem_map, List.mem_mergeSort, eq_comm]

/-- What was collected of a source is never left out on account of one that failed. -/
theorem not_mem_failed (hc : UnitsDistinct c) :
    ∀ u ∈ (link c.units).entries, u.1 ∉ c.failed.map (·.1) := by
  intro u hu
  obtain ⟨v, hv, rfl⟩ := mem_link_iff.1 hu
  obtain ⟨w, hw, rfl⟩ := (mem_units_iff hc).1 hv
  intro hfailed
  exact (List.nodup_append.1 hc).2.2 _ (List.mem_map_of_mem hw) _ hfailed rfl

/-- What is known of the symbols of what was collected. -/
def descriptions (c : Collection) : Table Symbol Meta := exports (link c.units) (c.failed.map (·.1))

theorem definition_mem_allFacts_iff (hc : UnitsDistinct c) {s : Symbol} {info : Meta} :
    .definition s info ∈ allFacts c ↔ (descriptions c).find? s = some info := by
  simp only [allFacts, sortedUnits, List.mem_flatMap, List.mem_mergeSort, List.mem_map]
  constructor
  · rintro ⟨u, hu, f, hf, h⟩
    cases f with
    | call => cases h
    | definition s' old =>
      cases h
      obtain ⟨info', hinfo⟩ := exists_export (not_mem_failed hc) ⟨u, hu, hf⟩
      rw [descriptions, Table.findD, hinfo]
      rfl
  · intro h
    obtain ⟨old, ⟨u, hu, hf⟩, -⟩ := defines_of_export (not_mem_failed hc) h
    refine ⟨u, hu, _, hf, ?_⟩
    change Fact.definition s ((descriptions c).findD s old) = _
    rw [Table.findD, h]
    rfl

theorem call_mem_allFacts_iff {caller callee : Symbol} {site : Location} :
    .call caller callee site ∈ allFacts c ↔
      ∃ u ∈ (link c.units).entries, .call caller callee site ∈ u.2 := by
  simp only [allFacts, sortedUnits, List.mem_flatMap, List.mem_mergeSort, List.mem_map]
  constructor
  · rintro ⟨u, hu, f, hf, h⟩
    cases f with
    | definition => cases h
    | call =>
      cases h
      exact ⟨u, hu, hf⟩
  · rintro ⟨u, hu, hf⟩
    exact ⟨u, hu, _, hf, rfl⟩

/-- The builder is handed well-formed facts, and for every symbol one description. -/
theorem proper_allFacts {F : String → Prop} (hc : UnitsDistinct c)
    (htree : ∀ u ∈ Collection.facts c, OfTree F u) :
    Fact.Proper (allFacts c) := by
  have hemitted : ∀ u ∈ c.units.entries, ∀ f ∈ u.2, f.Emitted := by
    intro u hu
    obtain ⟨v, hv, rfl⟩ := (mem_units_iff hc).1 hu
    obtain ⟨isPackage, body, hbody, hfacts⟩ := htree v hv
    exact Collect.emitted_factsOf hbody hfacts
  have hlinked : ∀ u ∈ (link c.units).entries, ∀ f ∈ u.2, f.Valid := by
    intro u hu
    obtain ⟨v, hv, rfl⟩ := mem_link_iff.1 hu
    exact (linked_linkUnit hemitted (hemitted v hv)).valid
  refine ⟨fun f hf => ?_, fun s a b ha hb => ?_⟩
  · cases f with
    | definition s info =>
      have hfind := (definition_mem_allFacts_iff hc).1 hf
      obtain ⟨old, ⟨u, hu, hold⟩, -⟩ := defines_of_export (not_mem_failed hc) hfind
      have hs : s.Valid := hlinked u hu _ hold
      exact hs
    | call caller callee site =>
      obtain ⟨u, hu, hcall⟩ := call_mem_allFacts_iff.1 hf
      exact hlinked u hu _ hcall
  · rw [definition_mem_allFacts_iff hc] at ha hb
    exact Option.some.inj (ha.symm.trans hb)

/-- The nodes are what the exports describe. -/
theorem find?_nodes_iff {F : String → Prop} (hc : UnitsDistinct c)
    (htree : ∀ u ∈ Collection.facts c, OfTree F u) {s : Symbol} {info : Meta} :
    (graphOf c).nodes.find? s = some info ↔ (descriptions c).find? s = some info := by
  rw [graphOf, (proper_allFacts hc htree).find?_nodes_iff, definition_mem_allFacts_iff hc]

theorem perm_nodes_graphOf {F : String → Prop} (hc : UnitsDistinct c)
    (htree : ∀ u ∈ Collection.facts c, OfTree F u) :
    (graphOf c).nodes.entries.Perm (descriptions c).entries := by
  have hg : Represents ((allFacts c).map Record.ofFact) (graphOf c) := represents_ofRecords _
  exact Table.perm_of_find? hg.definitions.nodup nodup_keys_exports fun s info =>
    find?_nodes_iff hc htree

/-- **No fact is lost**: if the sources are told apart by their units and those that did not fail
were told by trees in which names are identifiers, the graph leaves nothing out and contradicts
nothing. Its nodes are what the exports describe, however often a symbol is defined; every
definition has a node and every call a place in it. Every tree that a file is read as has such
names. -/
theorem graphOf_complete (hc : UnitsDistinct c)
    (htree : ∀ u ∈ Collection.facts c, OfTree Source.anyName u) :
    (graphOf c).dropped = 0 ∧
      (graphOf c).nodes.entries.Perm (descriptions c).entries ∧
      (∀ s, (graphOf c).nodes.find? s = (descriptions c).find? s) ∧
      (∀ u ∈ (link c.units).entries, ∀ s info, .definition s info ∈ u.2 →
        ∃ kept, (graphOf c).nodes.find? s = some kept) ∧
      (∀ u ∈ (link c.units).entries, ∀ caller callee site, .call caller callee site ∈ u.2 →
        ∃ places, (graphOf c).sites.find? (caller, callee) = some places ∧ site ∈ places) ∧
      ∀ content body, Source.read content = .ok body →
        Source.Stmt.AllNamed Source.anyName body := by
  have hproper := proper_allFacts hc htree
  have hperm := perm_nodes_graphOf hc htree
  have hg : Represents ((allFacts c).map Record.ofFact) (graphOf c) := represents_ofRecords _
  have hfind := Table.find?_of_perm hperm hg.definitions.nodup
  refine ⟨hproper.dropped_eq_zero, hperm, hfind, fun u hu s info hs => ?_,
    fun u hu caller callee site hcall => ?_,
    fun content body => Source.allNamed_of_read⟩
  · rw [hfind]
    exact exists_export (not_mem_failed hc) ⟨u, hu, hs⟩
  · exact hproper.exists_places (call_mem_allFacts_iff.2 ⟨u, hu, hcall⟩)

/-- What a tree tells of a unit, if it tells anything. -/
def unitFacts (module unit : String) (isPackage : Bool) (body : List Source.Stmt) :
    Collect.UnitFacts :=
  ⟨unit, module, "", ((Collect.factsOf module unit isPackage body).toOption).getD []⟩

theorem ofTree_unitFacts {F : String → Prop} {module unit : String} {isPackage : Bool}
    {body : List Source.Stmt} (hbody : Source.Stmt.AllNamed F body)
    (h : (Collect.factsOf module unit isPackage body).isOk = true) :
    OfTree F (unitFacts module unit isPackage body) := by
  refine ⟨isPackage, body, hbody, ?_⟩
  cases hfacts : Collect.factsOf module unit isPackage body with
  | error _ =>
    rw [hfacts] at h
    cases h
  | ok facts => simp only [unitFacts, hfacts, Except.toOption, Option.getD_some]

/-- A module that defines a function twice. -/
def redefining : List Source.Stmt := [
  .function 1 "f" {} [] [.simple []],
  .function 3 "f" {} [] [.evaluate (.call 4 (.name 4 "g" .load) [] [])],
  .classDef 6 "C" [] [] [] []]

/-- A file and a package of one name, in each of which a function is defined twice. -/
def redefinitions : Collection := [
  .fresh (unitFacts "m" "m.py" false redefining),
  .reused (unitFacts "m" "m/__init__.py" true redefining)]

theorem redefinitions_complete :
    (Fact.definitions ((Collection.facts redefinitions).flatMap (·.facts))).countP
      (·.1 = ⟨"m", "f", 0⟩) = 4 ∧
      UnitsDistinct redefinitions ∧
        (∀ u ∈ Collection.facts redefinitions, OfTree Source.anyName u) ∧
      (graphOf redefinitions).dropped = 0 ∧
      (graphOf redefinitions).nodes.entries.Perm (descriptions redefinitions).entries := by
  have hdistinct : UnitsDistinct redefinitions := by
    change ["m.py", "m/__init__.py"].Nodup
    decide
  have hnamed : Source.Stmt.AllNamed Source.anyName redefining := by
    simp only [redefining, Source.Stmt.AllNamed, Source.Stmt.Named, Source.Parameters.Named,
      Source.Expr.AllNamed,
      Source.Expr.Named]
    decide
  have htree : ∀ u ∈ Collection.facts redefinitions, OfTree Source.anyName u := by
    rintro u (_ | ⟨_, _ | ⟨_, h⟩⟩)
    · exact ofTree_unitFacts hnamed (by decide +kernel)
    · exact ofTree_unitFacts hnamed (by decide +kernel)
    · cases h
  obtain ⟨hdropped, hperm, -⟩ := graphOf_complete hdistinct htree
  exact ⟨by decide +kernel, hdistinct, htree, hdropped, hperm⟩

end Project

end Deadwood
