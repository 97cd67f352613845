import Mathlib.Data.List.Forall2
import Deadwood.Project.Link
import Deadwood.Proofs.Index

/-!
# Linking is closed

Linking replaces unresolved callees and completes descriptions; it invents nothing. The definitions
of a unit stay in their order, no call comes twice, and every callee that it puts in the place of an
unresolved one is a definition of the project or an external symbol that lies in no module of it
(`link_closed`).

What a collector promises about the facts it emits is `Emitted`; what linking makes of the facts of
a unit is `Linked`.
-/

namespace Deadwood

/-- The calls among facts, in order. -/
def Fact.calls (facts : List Fact) : List (Symbol × Symbol × Location) :=
  facts.filterMap fun
    | .definition .. => none
    | .call caller callee site => some (caller, callee, site)

theorem Fact.mem_calls_iff {facts : List Fact} {caller callee : Symbol} {site : Location} :
    (caller, callee, site) ∈ Fact.calls facts ↔ .call caller callee site ∈ facts := by
  simp only [Fact.calls, List.mem_filterMap]
  constructor
  · rintro ⟨f, hf, h⟩
    cases f with
    | definition => cases h
    | call =>
      cases h
      exact hf
  · intro h
    exact ⟨_, h, rfl⟩

namespace Project

/-! ## Calls that come a second time -/

theorem isRepeated_call_iff {seen : List Fact} {caller callee : Symbol} {site : Location} :
    isRepeated seen (.call caller callee site) = true ↔ .call caller callee site ∈ seen := by
  simp only [isRepeated, List.any_eq_true]
  constructor
  · rintro ⟨f, hf, h⟩
    cases f with
    | definition => cases h
    | call =>
      simp only [Prod.mk.injEq, decide_eq_true_eq] at h
      obtain ⟨rfl, rfl, rfl⟩ := h
      exact hf
  · intro h
    exact ⟨_, h, by simp⟩

/-- A fact is put in front of those kept, unless it is a call that is among them. -/
def keep (seen : List Fact) (f : Fact) : List Fact := if isRepeated seen f then seen else f :: seen

theorem dropRepeated_eq (facts : List Fact) : dropRepeated facts = (facts.foldl keep []).reverse :=
  rfl

theorem definitions_foldl_keep (facts seen : List Fact) :
    Fact.definitions (facts.foldl keep seen).reverse =
      Fact.definitions seen.reverse ++ Fact.definitions facts := by
  induction facts generalizing seen with
  | nil => simp [Fact.definitions]
  | cons f rest ih =>
    rw [List.foldl_cons, ih]
    cases f with
    | definition s info => simp [keep, isRepeated, Fact.definitions]
    | call caller callee site =>
      unfold keep
      split <;> simp [Fact.definitions]

theorem calls_foldl_keep_nodup (facts seen : List Fact) (h : (Fact.calls seen).Nodup) :
    (Fact.calls (facts.foldl keep seen)).Nodup := by
  induction facts generalizing seen with
  | nil => exact h
  | cons f rest ih =>
    refine ih _ ?_
    cases f with
    | definition s info => exact h
    | call caller callee site =>
      unfold keep
      split
      · exact h
      · rename_i hr
        refine List.nodup_cons.2 ⟨fun hm => hr (isRepeated_call_iff.2 ?_), h⟩
        exact Fact.mem_calls_iff.1 hm

theorem call_mem_foldl_keep {facts seen : List Fact} {caller callee : Symbol} {site : Location} :
    .call caller callee site ∈ facts.foldl keep seen ↔
      .call caller callee site ∈ seen ∨ .call caller callee site ∈ facts := by
  induction facts generalizing seen with
  | nil => simp
  | cons f rest ih =>
    have hkeep : .call caller callee site ∈ keep seen f ↔
        .call caller callee site ∈ seen ∨ f = .call caller callee site := by
      unfold keep
      split
      · rename_i hr
        constructor
        · exact .inl
        · rintro (h | rfl)
          · exact h
          · exact isRepeated_call_iff.1 hr
      · rw [List.mem_cons, or_comm, eq_comm]
    rw [List.foldl_cons, ih, hkeep, List.mem_cons, or_assoc, @eq_comm _ f]

/-! ## The facts of a unit -/

variable {units : Units} {ix : Index} {facts : List Fact}

theorem definitions_flatMap_linkFact :
    Fact.definitions (facts.flatMap (linkFact ix)) =
      (Fact.definitions facts).map fun d => (d.1, linkMeta ix d.1 d.2) := by
  have hcalls : ∀ (caller : Symbol) (site : Location) (cs : List Symbol),
      Fact.definitions (cs.map (.call caller · site)) = [] := by
    intro caller site cs
    simp [Fact.definitions]
  induction facts with
  | nil => rfl
  | cons f rest ih =>
    rw [List.flatMap_cons, Fact.definitions, List.filterMap_append]
    change Fact.definitions _ ++ Fact.definitions _ = _
    rw [ih]
    cases f with
    | definition s info => rfl
    | call caller callee site =>
      rw [linkFact, hcalls]
      rfl

theorem definitions_linkUnit : Fact.definitions (linkUnit ix facts) =
    (Fact.definitions facts).map fun d => (d.1, linkMeta ix d.1 d.2) := by
  rw [linkUnit, dropRepeated_eq, definitions_foldl_keep, definitions_flatMap_linkFact]
  rfl

theorem calls_linkUnit_nodup : (Fact.calls (linkUnit ix facts)).Nodup := by
  have h := calls_foldl_keep_nodup (facts.flatMap (linkFact ix)) [] List.nodup_nil
  rw [linkUnit, dropRepeated_eq, Fact.calls, List.filterMap_reverse]
  exact List.nodup_reverse.2 h

/-- The calls of a linked unit are those of the unit, each callee replaced by all it may stand
for. -/
theorem call_mem_linkUnit_iff {caller callee : Symbol} {site : Location} :
    .call caller callee site ∈ linkUnit ix facts ↔
      ∃ old, .call caller old site ∈ facts ∧ callee ∈ ix.resolve old := by
  rw [linkUnit, dropRepeated_eq, List.mem_reverse, call_mem_foldl_keep, List.mem_flatMap]
  constructor
  · rintro (h | ⟨f, hf, h⟩)
    · cases h
    · cases f with
      | definition => simp [linkFact] at h
      | call caller' old site' =>
        obtain ⟨c, hc, h⟩ := List.mem_map.1 h
        cases h
        exact ⟨old, hf, hc⟩
  · rintro ⟨old, hf, hc⟩
    exact .inr ⟨_, hf, List.mem_map.2 ⟨callee, hc, rfl⟩⟩

/-- Linking changes of a description at most the names that are offered and the bases. -/
theorem linkMeta_eq (s : Symbol) (info : Meta) : linkMeta ix s info =
    { info with
      reexports := (linkMeta ix s info).reexports
      implements := (linkMeta ix s info).implements } := by
  unfold linkMeta
  split_ifs <;> rfl

/-! ## Well-formed facts -/

end Project

namespace Fact

/-- Every symbol of the fact can name a definition. -/
def Valid : Fact → Prop
  | .definition s _ => s.Valid
  | .call caller callee _ => caller.Valid ∧ callee.Valid

/-- What a collected fact promises: the definition or the caller is valid, a callee has a name of
one segment, and what a module's names stand for ends in a name. -/
def Emitted : Fact → Prop
  | .definition s info =>
    s.Valid ∧ (s.name = Symbol.bodyName → ∀ a ∈ info.aliases.entries, Dotted.last a.2 ≠ "")
  | .call caller callee _ => caller.Valid ∧ callee.name ≠ "" ∧ Dotted.Simple callee.name

instance : DecidablePred Emitted
  | .definition .. => inferInstanceAs (Decidable (_ ∧ _))
  | .call .. => inferInstanceAs (Decidable (_ ∧ _))

end Fact

namespace Project

/-- What a callee may become. A resolved one stays. An unresolved one becomes a definition of the
project or, if it is a call, the external symbol that takes its arguments; then its name, the
aliases followed, begins with no module of the project. -/
def StandsFor (units : Units) (callee c : Symbol) : Prop :=
  if 0 ≤ callee.arity then c = callee
  else
    let dotted := (Index.ofUnits units).resolveAlias (Index.calleeName callee)
    (∃ info, Defines units c info) ∨
      callee.arity ≤ -2 ∧ c = Index.externalSymbol dotted (-2 - callee.arity) ∧
        ∀ s info, Defines units s info → s.name = Symbol.bodyName → ¬ Dotted.Encloses s.scope dotted

/-- How the facts of a unit and what linking makes of them belong together. -/
structure Linked (units : Units) (before after : List Fact) : Prop where
  /-- The definitions stay, with descriptions that differ at most in two fields. -/
  definitions : List.Forall₂ (fun d e => e.1 = d.1 ∧
      e.2 = { d.2 with reexports := e.2.reexports, implements := e.2.implements })
    (Fact.definitions before) (Fact.definitions after)
  nodup : (Fact.calls after).Nodup
  valid : ∀ f ∈ after, f.Valid
  /-- The calls are the old ones, each callee replaced by all it resolves to. -/
  calls : ∀ caller c site, .call caller c site ∈ after ↔
    ∃ callee, .call caller callee site ∈ before ∧ c ∈ (Index.ofUnits units).resolve callee
  standsFor : ∀ caller callee site, .call caller callee site ∈ before →
    ∀ c ∈ (Index.ofUnits units).resolve callee, StandsFor units callee c

theorem standsFor_of_mem_resolve {callee c : Symbol}
    (h : c ∈ (Index.ofUnits units).resolve callee) :
    StandsFor units callee c := by
  unfold StandsFor
  split_ifs with ha
  · rw [Index.resolve, if_pos ha] at h
    exact List.mem_singleton.1 h
  · rcases Index.resolve_cases (by omega) h with hd | ⟨harity, hin, hc⟩
    · exact .inl hd
    · refine .inr ⟨harity, hc, fun s info hd hs hp => ?_⟩
      have hm := Index.contains_modules_iff.2 ⟨s, info, hd, hs, rfl⟩
      have := List.any_eq_false.1 hin _ (Dotted.mem_enclosing_iff.2 hp)
      exact this hm

theorem last_resolveAlias (h : ∀ u ∈ units.entries, ∀ f ∈ u.2, f.Emitted) {dotted : String}
    (hd : Dotted.last dotted ≠ "") :
    Dotted.last ((Index.ofUnits units).resolveAlias dotted) ≠ "" := by
  refine Index.last_followAliases (fun k target halias => ?_) _ hd
  obtain ⟨s, info, ⟨u, hu, hs⟩, hbody, a, ha, -, rfl⟩ := Index.exists_of_alias halias
  exact (h u hu _ hs).2 hbody a ha

theorem last_calleeName {callee : Symbol} (h : Dotted.Simple callee.name) :
    Dotted.last (Index.calleeName callee) = callee.name := by
  unfold Index.calleeName
  split_ifs
  · exact Dotted.last_of_simple h
  · exact Dotted.last_below_of_simple h

theorem externalSymbol_valid {dotted : String} {arguments : Int} (h : Dotted.last dotted ≠ "")
    (ha : 0 ≤ arguments) : (Index.externalSymbol dotted arguments).Valid :=
  ⟨h, ha⟩

/-- A callee with a name of one segment becomes only symbols that can name a definition. -/
theorem valid_of_mem_resolve (h : ∀ u ∈ units.entries, ∀ f ∈ u.2, f.Emitted) {callee c : Symbol}
    (hne : callee.name ≠ "") (hsimple : Dotted.Simple callee.name)
    (hc : c ∈ (Index.ofUnits units).resolve callee) : c.Valid := by
  have hs := standsFor_of_mem_resolve hc
  unfold StandsFor at hs
  split_ifs at hs with ha
  · rw [hs]
    exact ⟨hne, ha⟩
  · rcases hs with ⟨info, u, hu, hd⟩ | ⟨harity, rfl, -⟩
    · exact (h u hu _ hd).1
    · have hname : Dotted.last ((Index.ofUnits units).resolveAlias (Index.calleeName callee)) ≠
          "" :=
        last_resolveAlias h (by rwa [last_calleeName hsimple])
      exact externalSymbol_valid hname (by omega)

theorem linked_linkUnit (h : ∀ u ∈ units.entries, ∀ f ∈ u.2, f.Emitted)
    (hfacts : ∀ f ∈ facts, f.Emitted) :
    Linked units facts (linkUnit (Index.ofUnits units) facts) where
  definitions := by
    rw [definitions_linkUnit, List.forall₂_map_right_iff, List.forall₂_same]
    exact fun d _ => ⟨rfl, linkMeta_eq d.1 d.2⟩
  nodup := calls_linkUnit_nodup
  valid := by
    intro f hf
    cases f with
    | definition s info =>
      have hm := mem_definitions_iff.2 hf
      rw [definitions_linkUnit] at hm
      obtain ⟨⟨s', info'⟩, hd, he⟩ := List.mem_map.1 hm
      obtain ⟨rfl, -⟩ := Prod.mk.inj he
      exact (hfacts _ (mem_definitions_iff.1 hd)).1
    | call caller callee site =>
      obtain ⟨old, hold, hc⟩ := call_mem_linkUnit_iff.1 hf
      obtain ⟨hcaller, hne, hsimple⟩ := hfacts _ hold
      exact ⟨hcaller, valid_of_mem_resolve h hne hsimple hc⟩
  calls := fun _ _ _ => call_mem_linkUnit_iff
  standsFor := fun _ _ _ _ _ => standsFor_of_mem_resolve

/-! ## All units -/

/-- **Linking is closed**: unit by unit, in the order of their names, the facts that come out belong
to those that go in as `Linked` says. -/
theorem link_closed (units : Units) (h : ∀ u ∈ units.entries, ∀ f ∈ u.2, f.Emitted) :
    List.Forall₂ (fun u v => v.1 = u.1 ∧ Linked units u.2 v.2)
      (sortedUnits units) (link units).entries := by
  simp only [link, List.forall₂_map_right_iff, List.forall₂_same]
  intro u hu
  exact ⟨trivial, linked_linkUnit h fun f hf => h u (List.mem_mergeSort.1 hu) f hf⟩

/-- A module that calls a function of another one and something outside the project. -/
def twoModules : Units := ⟨[
  ("b.py", [
    .definition (.body "b") { kind := "module", aliases := ⟨[("f", "a.f"), ("g", "os.path.g")]⟩ },
    .call (.body "b") (.callWith "b" "f" 1) ⟨"b.py", 2⟩,
    .call (.body "b") (.callWith "b" "g" 3) ⟨"b.py", 3⟩]),
  ("a.py", [.definition (.body "a") { kind := "module" }, .definition ⟨"a", "f", 1⟩ {}])]⟩

theorem twoModules_linked : (∀ u ∈ twoModules.entries, ∀ f ∈ u.2, f.Emitted) ∧
    List.Forall₂ (fun u v => v.1 = u.1 ∧ Linked twoModules u.2 v.2)
      (sortedUnits twoModules) (link twoModules).entries :=
  ⟨by decide, link_closed twoModules (by decide)⟩

end Project

end Deadwood
