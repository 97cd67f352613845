import Deadwood.Proofs.Complete
import Deadwood.Proofs.Ignored

/-!
# The constructors of a class

A class statement defines the class and, for a record, also the initializer of its fields, which the
class then calls. As long as no function has the name that is reserved for the two, nothing else
defines an initializer and an initializer calls nothing. The pairs stay together from the events of
a module through its facts and linking to the graph.

* `Collect.WithClasses`, `Fact.WithClasses`: an initializer comes with its class and uses nothing.
* `Project.hasClasses_graphOf`, `Project.callees_fieldsOf`: what this gives for the graph of a
  project.
-/

namespace Deadwood

/-- No function has the name that is reserved for the constructors of a class. -/
abbrev Source.notReserved : String → Prop := fun name => name ≠ Symbol.recordName

namespace Collect

/-- The initializers among events come with their classes, which use them, and use nothing. -/
structure WithClasses (events : List Event) : Prop where
  paired : ∀ {S info doc top}, .define (.fieldsOf S) info doc top ∈ events → info.generated = true ∧
    (∃ info' doc' top', .define (.classOf S) info' doc' top' ∈ events) ∧
    ∃ line, .use (.classOf S) (.fieldsOf S) line ∈ events
  inert : ∀ {S callee line}, .use (.fieldsOf S) callee line ∉ events

theorem WithClasses.append {events events' : List Event} (h : WithClasses events)
    (h' : WithClasses events') :
    WithClasses (events ++ events') where
  paired := by
    intro S info doc top hmem
    rcases List.mem_append.1 hmem with hmem | hmem
    · obtain ⟨hgenerated, ⟨info', doc', top', hclass⟩, line, huse⟩ := h.paired hmem
      exact ⟨hgenerated, ⟨info', doc', top', List.mem_append_left _ hclass⟩, line,
        List.mem_append_left _ huse⟩
    · obtain ⟨hgenerated, ⟨info', doc', top', hclass⟩, line, huse⟩ := h'.paired hmem
      exact ⟨hgenerated, ⟨info', doc', top', List.mem_append_right _ hclass⟩, line,
        List.mem_append_right _ huse⟩
  inert := fun hmem => (List.mem_append.1 hmem).elim h.inert h'.inert

theorem ne_fieldsOf_of_name {s : Symbol} (h : s.name ≠ Symbol.recordName) (S : String) :
    s ≠ .fieldsOf S :=
  fun hs => h (congrArg Symbol.name hs)

theorem classOf_ne_fieldsOf (S S' : String) : Symbol.classOf S ≠ .fieldsOf S' := by
  intro h
  cases congrArg Symbol.arity h

theorem body_ne_fieldsOf (module S : String) : Symbol.body module ≠ .fieldsOf S := by
  have hname : Symbol.bodyName ≠ Symbol.recordName := by decide
  exact ne_fieldsOf_of_name hname S

theorem Owner.ne_fieldsOf {s : Symbol} (h : Owner Source.notReserved s) (S : String) :
    s ≠ .fieldsOf S := by
  cases h with
  | body module => exact body_ne_fieldsOf module S
  | function scope arity _ hF => exact ne_fieldsOf_of_name hF S
  | classOf scope => exact classOf_ne_fieldsOf scope S

/-- A definition of something else. -/
theorem withClasses_define {s : Symbol} (h : ∀ S, s ≠ .fieldsOf S) (info : Meta)
    (doc : Source.Summary) (top : Option String) : WithClasses [.define s info doc top] where
  paired := by
    intro S info' doc' top' hmem
    obtain ⟨rfl, -⟩ := Event.define.inj (List.mem_singleton.1 hmem)
    exact absurd rfl (h S)
  inert := by
    intro S callee line hmem
    cases List.mem_singleton.1 hmem

/-- The definitions of a record. -/
theorem withClasses_record (S : String) (info : Meta) (doc : Source.Summary) (top : Option String)
    {info' : Meta} (h : info'.generated = true) (line : Nat) :
    WithClasses [.define (.classOf S) info doc top, .define (.fieldsOf S) info' .absent top,
      .use (.classOf S) (.fieldsOf S) line] where
  paired := by
    intro S' info'' doc' top' hmem
    rcases List.mem_cons.1 hmem with heq | hmem
    · exact absurd (Event.define.inj heq).1.symm (classOf_ne_fieldsOf S S')
    · rcases List.mem_cons.1 hmem with heq | hmem
      · obtain ⟨hs, rfl, -, -⟩ := Event.define.inj heq
        obtain rfl : S' = S := congrArg Symbol.scope hs
        exact ⟨h, ⟨info, doc, top, .head _⟩, line, .tail _ (.tail _ (.head _))⟩
      · cases List.mem_singleton.1 hmem
  inert := by
    intro S' callee line' hmem
    rcases hmem with _ | ⟨_, _ | ⟨_, hmem⟩⟩
    exact classOf_ne_fieldsOf S S' (Event.use.inj (List.mem_singleton.1 hmem)).1.symm

/-- **What a walk tells keeps the pairs together.** -/
theorem Told.withClasses {events : List Event} (h : Told Source.notReserved events) :
    WithClasses events := by
  induction h with
  | nil => exact ⟨nofun, nofun⟩
  | append h h' ih ih' => exact ih.append ih'
  | use line hcaller hcallee =>
    refine ⟨fun hmem => ?_, fun {S _ _} hmem => ?_⟩
    · cases List.mem_singleton.1 hmem
    · obtain ⟨hs, -⟩ := Event.use.inj (List.mem_singleton.1 hmem)
      exact hcaller.ne_fieldsOf S hs.symm
  | function p line parameters decorators body hname hF =>
    exact withClasses_define ((owner_functionSymbol hname hF parameters decorators).ne_fieldsOf)
      _ _ _
  | classDef p c line name decorators body =>
    simp only [classEvents]
    generalize (if p.atTop = true then some name else none) = top
    split
    · exact withClasses_record c.name _ _ _ rfl line
    · exact withClasses_define (classOf_ne_fieldsOf c.name) _ _ _

end Collect

/-! ## Facts -/

/-- The initializers among facts come with their classes, which call them, and call nothing. -/
structure Fact.WithClasses (facts : List Fact) : Prop where
  paired : ∀ {S info}, .definition (.fieldsOf S) info ∈ facts → info.generated = true ∧
    (∃ info', .definition (.classOf S) info' ∈ facts) ∧
      ∃ site, .call (.classOf S) (.fieldsOf S) site ∈ facts
  inert : ∀ {S callee site}, .call (.fieldsOf S) callee site ∉ facts

namespace Collect

variable {unit : String} {names : List String} {e : Event}

theorem exists_define {s : Symbol} {info : Meta}
    (h : eventFact unit names e = .ok (.definition s info)) :
    ∃ info' doc top, e = .define s info' doc top ∧ info.generated = info'.generated := by
  obtain ⟨s', info', doc, top, value, rfl, -, heq⟩ | ⟨caller, callee, line, -, heq⟩ :=
    eventFact_cases h
  · cases heq
    exact ⟨info', doc, top, rfl, rfl⟩
  · cases heq

theorem exists_use {caller callee : Symbol} {site : Location}
    (h : eventFact unit names e = .ok (.call caller callee site)) :
    ∃ line, e = .use caller callee line := by
  obtain ⟨s, info, doc, top, value, -, -, heq⟩ | ⟨caller', callee', line, rfl, heq⟩ :=
    eventFact_cases h
  · cases heq
  · cases heq
    exact ⟨line, rfl⟩

/-- A definition among events is one among their facts. -/
theorem exists_definition_of_define {events : List Event} {facts : List Fact}
    (hfacts : events.mapM (eventFact unit names) = .ok facts) {s : Symbol} {info : Meta}
    {doc : Source.Summary} {top : Option String} (h : .define s info doc top ∈ events) :
    ∃ info', .definition s info' ∈ facts := by
  obtain ⟨f, hf, hfact⟩ := (facts_of_events hfacts).1 _ h
  obtain ⟨_, _, _, _, _, heq, -, rfl⟩ | ⟨_, _, _, heq, -⟩ := eventFact_cases hfact
  · cases heq
    exact ⟨_, hf⟩
  · cases heq

theorem WithClasses.facts {events : List Event} (h : WithClasses events) {facts : List Fact}
    (hfacts : events.mapM (eventFact unit names) = .ok facts) : Fact.WithClasses facts := by
  obtain ⟨htell, htold⟩ := facts_of_events hfacts
  refine ⟨fun {S info} hmem => ?_, fun {S callee site} hmem => ?_⟩
  · obtain ⟨e, he, hfact⟩ := htold _ hmem
    obtain ⟨info₀, doc, top, rfl, hgenerated⟩ := exists_define hfact
    obtain ⟨hgenerated₀, ⟨_, _, _, hclass⟩, line, huse⟩ := h.paired he
    obtain ⟨f, hf, huse⟩ := htell _ huse
    cases huse
    exact ⟨hgenerated.trans hgenerated₀, exists_definition_of_define hfacts hclass, _, hf⟩
  · obtain ⟨e, he, hfact⟩ := htold _ hmem
    obtain ⟨line, rfl⟩ := exists_use hfact
    exact h.inert he

theorem withClasses_factsOf {module unit : String} {isPackage : Bool} {body : List Source.Stmt}
    (hbody : Source.Stmt.AllNamed Source.notReserved body) {facts : List Fact}
    (h : factsOf module unit isPackage body = .ok facts) : Fact.WithClasses facts := by
  obtain ⟨events, names, reexports, imports, htold, -, hfacts⟩ := exists_events hbody h
  exact ((withClasses_define (body_ne_fieldsOf module) _ _ _).append htold.withClasses).facts hfacts

end Collect

namespace Project

variable {ix : Index} {facts : List Fact}

theorem definition_mem_linkUnit_iff {s : Symbol} {info : Meta} :
    .definition s info ∈ linkUnit ix facts ↔
    ∃ old, .definition s old ∈ facts ∧ info = linkMeta ix s old := by
  simp only [← mem_definitions_iff, definitions_linkUnit, List.mem_map, Prod.mk.injEq, Prod.exists]
  constructor
  · rintro ⟨s', old, hold, rfl, rfl⟩
    exact ⟨old, hold, rfl⟩
  · rintro ⟨old, hold, rfl⟩
    exact ⟨s, old, hold, rfl, rfl⟩

theorem generated_linkMeta (s : Symbol) (info : Meta) :
    (linkMeta ix s info).generated = info.generated := by
  rw [linkMeta_eq]

/-- Linking keeps the pairs together: the initializer is a resolved callee. -/
theorem withClasses_linkUnit (h : Fact.WithClasses facts) :
    Fact.WithClasses (linkUnit ix facts) where
  paired := by
    intro S info hmem
    obtain ⟨old, hold, rfl⟩ := definition_mem_linkUnit_iff.1 hmem
    obtain ⟨hgenerated, ⟨info', hclass⟩, site, hcall⟩ := h.paired hold
    have hresolved : Symbol.fieldsOf S ∈ ix.resolve (.fieldsOf S) := by
      have harity : (Symbol.fieldsOf S).arity ≥ 0 := Int.one_nonneg
      rw [Index.resolve, if_pos harity]
      exact List.mem_singleton_self _
    refine ⟨(generated_linkMeta _ _).trans hgenerated,
      ⟨_, definition_mem_linkUnit_iff.2 ⟨info', hclass, rfl⟩⟩, site, ?_⟩
    exact call_mem_linkUnit_iff.2 ⟨_, hcall, hresolved⟩
  inert := by
    intro S callee site hmem
    obtain ⟨old, hold, -⟩ := call_mem_linkUnit_iff.1 hmem
    exact h.inert hold

/-! ## The graph of a project -/

section Graph

variable {c : Collection} (hc : UnitsDistinct c)
    (htree : ∀ u ∈ Collection.facts c, OfTree Source.notReserved u)

include hc htree

theorem withClasses_link : ∀ u ∈ (link c.units).entries, Fact.WithClasses u.2 := by
  intro u hu
  obtain ⟨v, hv, rfl⟩ := mem_link_iff.1 hu
  obtain ⟨w, hw, rfl⟩ := (mem_units_iff hc).1 hv
  obtain ⟨isPackage, body, hbody, hfacts⟩ := htree w hw
  exact withClasses_linkUnit (Collect.withClasses_factsOf hbody hfacts)

/-- **Every initializer of a project has its class.** -/
theorem hasClasses_graphOf : Analysis.HasClasses (graphOf c) := by
  have hpaired {S : String} {info : Meta}
    (hinfo : (graphOf c).nodes.find? (.fieldsOf S) = some info) :
      info.generated = true ∧ ∃ u ∈ (link c.units).entries, ∃ old,
        .definition (.fieldsOf S) old ∈ u.2 := by
    obtain ⟨old, ⟨u, hu, hold⟩, heq⟩ :=
      defines_of_export (not_mem_failed hc) ((find?_nodes_iff hc htree).1 hinfo)
    rw [heq]
    exact ⟨((withClasses_link hc htree u hu).paired hold).1, u, hu, old, hold⟩
  intro S hS
  obtain ⟨info, hinfo⟩ := Table.contains_iff_find?.1 hS
  obtain ⟨-, u, hu, old, hold⟩ := hpaired hinfo
  obtain ⟨-, ⟨info', hclass⟩, site, hcall⟩ := (withClasses_link hc htree u hu).paired hold
  refine ⟨fun info hinfo => (hpaired hinfo).1, Table.contains_iff_find?.2 ?_, ?_⟩
  · obtain ⟨kept, hkept⟩ := exists_export (not_mem_failed hc) ⟨u, hu, hclass⟩
    exact ⟨kept, (find?_nodes_iff hc htree).2 hkept⟩
  · exact (proper_allFacts hc htree).mem_callees_iff.2
      ⟨site, call_mem_allFacts_iff.2 ⟨u, hu, hcall⟩⟩

/-- **No initializer of a project calls anything.** -/
theorem callees_fieldsOf (S : String) : (graphOf c).callees (.fieldsOf S) = [] := by
  refine List.eq_nil_iff_forall_not_mem.2 fun callee hcallee => ?_
  obtain ⟨site, hcall⟩ := (proper_allFacts hc htree).mem_callees_iff.1 hcallee
  obtain ⟨u, hu, hcall⟩ := call_mem_allFacts_iff.1 hcall
  exact (withClasses_link hc htree u hu).inert hcall

end Graph

-- the condition on names is needed: a function of the reserved name passes for an initializer, but
-- has no class
example : (Collect.factsOf "m" "m.py" false
      [.function 1 "__struct__" { positional := ["x"] } [] []]).toOption.map
    (fun facts => (Fact.definitions facts).map (·.1)) = some [.body "m", .fieldsOf "m"] := by
  decide +kernel

end Project

end Deadwood
