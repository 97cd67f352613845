import Deadwood.Proofs.CallExpressions

/-!
# The names that are known before a walk

Before a module is walked over, an outline gathers the names that its own code defines, so that a
use may come before the definition. The walk itself defines what it comes to. The two go over the
statements in different ways: the outline looks into the blocks of all statements but selections,
the walk into those of all.

* `OwnDefinition body selected l`: a function or class of a module's own code, `selected` if it
  stands in a selection.
* `mem_outline_iff`: the outline has those that do not stand in a selection. `mem_walkedNames_iff`:
  the walk defines all of them in the module's own scope.
* `resolve?_of_defined`: wherever a walk comes, it knows what a name of the outline stands for.
* `outline_exact`: the outline and the walk agree if and only if every name that is defined in a
  selection is defined outside of one, too; every bare call of a name of the outline is told.
* `selection_missed`: a function in a selection, the calls of which are lost.
-/

namespace Deadwood

namespace Source

/-! ## The definitions of a module's own code -/

/-- The layer that a statement makes, if it is a function or class. -/
def Stmt.layer? : Stmt → Option Layer
  | .function _ name parameters decorators _ => some (.function name parameters decorators)
  | .classDef _ name _ _ _ _ => some (.classDef name)
  | _ => none

/-- The layer that something in a module makes, if it is a function or class. -/
def Part.layer? : Part → Option Layer
  | .function _ name parameters decorators _ => some (.function name parameters decorators)
  | .classDef _ name _ _ _ _ => some (.classDef name)
  | _ => none

/-- A function or class that some statements define in their own code: it is one of them, or stands
in a block that one of them holds. It is `selected` if one of the blocks around it is a
selection. -/
inductive OwnDefinition : List Stmt → Bool → Layer → Prop
  | here {body : List Stmt} {s : Stmt} {l : Layer} (hs : s ∈ body) (hl : s.layer? = some l) :
    OwnDefinition body false l
  | inBlock {body inner : List Stmt} {form : BlockForm} {clauses : List Clause} {header : List Expr}
    {selected : Bool}
      {l : Layer} (hblock : .block form clauses ∈ body) (hclause : .mk header inner ∈ clauses)
      (h : OwnDefinition inner selected l) : OwnDefinition body (selected || form = .select) l

namespace OwnDefinition

variable {body body' : List Stmt} {selected : Bool} {l : Layer}

theorem mono (h : OwnDefinition body selected l) (hsub : body ⊆ body') :
    OwnDefinition body' selected l := by
  cases h with
  | here hs hl => exact .here (hsub hs) hl
  | inBlock hblock hclause h => exact .inBlock (hsub hblock) hclause h

theorem cons {s : Stmt} (h : OwnDefinition body selected l) :
    OwnDefinition (s :: body) selected l :=
  h.mono (List.subset_cons_self s body)

theorem head {s : Stmt} (h : OwnDefinition [s] selected l) : OwnDefinition (s :: body) selected l :=
  h.mono (List.cons_subset_cons s (List.nil_subset body))

end OwnDefinition

/-- A function or class in a clause of a block. -/
def InClause (clauses : List Clause) (selected : Bool) (l : Layer) : Prop :=
  ∃ header inner, .mk header inner ∈ clauses ∧ OwnDefinition inner selected l

theorem InClause.ownDefinition {clauses : List Clause} {selected : Bool} {l : Layer}
    (h : InClause clauses selected l) (form : BlockForm) :
    OwnDefinition [.block form clauses] (selected || form = .select) l := by
  obtain ⟨header, inner, hclause, h⟩ := h
  exact .inBlock (List.mem_singleton_self _) hclause h

theorem InClause.cons {clauses : List Clause} {c : Clause} {selected : Bool} {l : Layer}
    (h : InClause clauses selected l) : InClause (c :: clauses) selected l := by
  obtain ⟨header, inner, hclause, h⟩ := h
  exact ⟨header, inner, List.mem_cons_of_mem _ hclause, h⟩

end Source

namespace Collect

open Source

/-! ## What the outline gathers -/

section Outline

theorem definedName?_eq (s : Stmt) : definedName? s = s.layer?.map Layer.name := by
  cases s <;> rfl

variable {l : Layer}

mutual

theorem ownDefinition_of_mem_topStatement {s t : Stmt} {l : Layer} (h : t ∈ topStatement s)
    (hl : t.layer? = some l) :
    OwnDefinition [s] false l := by
  cases s with
  | block form clauses =>
    rw [topStatement, List.mem_cons] at h
    rcases h with rfl | h
    · cases hl
    · split at h
      · cases h
      · rename_i hform
        have hown := (inClause_of_mem_topClauses h hl).ownDefinition form
        rwa [decide_eq_false hform, Bool.or_false] at hown
  | _ =>
    obtain rfl := List.mem_singleton.1 h
    exact .here (List.mem_singleton_self _) hl

theorem ownDefinition_of_mem_topStatements {body : List Stmt} {t : Stmt} {l : Layer}
    (h : t ∈ topStatements body) (hl : t.layer? = some l) : OwnDefinition body false l := by
  cases body with
  | nil => cases h
  | cons s rest =>
    rcases List.mem_append.1 h with h | h
    · exact (ownDefinition_of_mem_topStatement h hl).head
    · exact (ownDefinition_of_mem_topStatements h hl).cons

theorem inClause_of_mem_topClauses {clauses : List Clause} {t : Stmt} {l : Layer}
    (h : t ∈ topClauses clauses) (hl : t.layer? = some l) : InClause clauses false l := by
  match clauses with
  | [] => cases h
  | .mk header body :: rest =>
    rcases List.mem_append.1 h with h | h
    · exact ⟨header, body, List.mem_cons_self, ownDefinition_of_mem_topStatements h hl⟩
    · exact (inClause_of_mem_topClauses h hl).cons

end

theorem topStatements_eq_flatMap (body : List Stmt) :
    topStatements body = body.flatMap topStatement := by
  induction body with
  | nil => rfl
  | cons s rest ih => rw [topStatements, ih, List.flatMap_cons]

theorem mem_topClauses {clauses : List Clause} {header : List Expr} {inner : List Stmt} {t : Stmt}
    (hclause : .mk header inner ∈ clauses) (ht : t ∈ topStatements inner) :
    t ∈ topClauses clauses := by
  induction clauses with
  | nil => cases hclause
  | cons c rest ih =>
    obtain ⟨header', body⟩ := c
    rw [topClauses, List.mem_append]
    rcases List.mem_cons.1 hclause with heq | hclause
    · cases heq
      exact .inl ht
    · exact .inr (ih hclause)

theorem exists_mem_topStatements {body : List Stmt} {selected : Bool}
    (h : OwnDefinition body selected l) (hselected : selected = false) :
    ∃ s ∈ topStatements body, s.layer? = some l := by
  induction h with
  | @here body s l hs hl =>
    refine ⟨s, ?_, hl⟩
    rw [topStatements_eq_flatMap, List.mem_flatMap]
    refine ⟨s, hs, ?_⟩
    cases s <;> simp [topStatement]
  | @inBlock body inner form clauses header selected l hblock hclause _ ih =>
    obtain ⟨hselected, hform⟩ := Bool.or_eq_false_iff.1 hselected
    obtain ⟨s, hs, hl⟩ := ih hselected
    refine ⟨s, ?_, hl⟩
    rw [topStatements_eq_flatMap, List.mem_flatMap]
    refine ⟨_, hblock, ?_⟩
    rw [topStatement, if_neg (of_decide_eq_false hform)]
    exact List.mem_cons_of_mem _ (mem_topClauses hclause hs)

/-- **The outline gathers the names of what is defined outside of selections.** -/
theorem mem_outline_iff {module : String} {isPackage : Bool} {body : List Stmt} {name : String} :
    name ∈ (outline module isPackage body).defined ↔
      ∃ l, OwnDefinition body false l ∧ l.name = name := by
  have hdefined : (outline module isPackage body).defined =
    (topStatements body).filterMap definedName? := rfl
  rw [hdefined, List.mem_filterMap]
  constructor
  · rintro ⟨s, hs, hname⟩
    rw [definedName?_eq, Option.map_eq_some_iff] at hname
    obtain ⟨l, hl, hname⟩ := hname
    exact ⟨l, ownDefinition_of_mem_topStatements hs hl, hname⟩
  · rintro ⟨l, hown, hname⟩
    obtain ⟨s, hs, hl⟩ := exists_mem_topStatements hown rfl
    exact ⟨s, hs, by rw [definedName?_eq, hl, Option.map_some, hname]⟩

end Outline

/-! ## What the walk defines -/

section Layout

variable {around : List Layer} {l : Layer}

/-- What stands in some statements has the layers around the statements around it. -/
theorem suffix_of_mem_layoutAll {body : List Stmt} {h : Held}
    (hmem : h ∈ Stmt.layoutAll around body) :
    around <:+ h.around := by
  have hkept : KeptInside fun outer _ => around <:+ outer :=
    ⟨fun hsuffix _ _ _ => hsuffix.trans (List.suffix_cons _ _), fun hsuffix _ _ _ _ =>
      hsuffix.trans (List.suffix_cons _ _)⟩
  rw [← toHeld_visitsAll around (Place.top "" false []) {} body] at hmem
  obtain ⟨v, hv, rfl⟩ := List.mem_map.1 hmem
  exact hkept.of_mem_visitsAll List.suffix_rfl _ body v hv

theorem not_mem_layoutAll_cons {outer : Layer} {body : List Stmt} {part : Part} :
    (⟨around, part⟩ : Held) ∉ Stmt.layoutAll (outer :: around) body := by
  intro hmem
  have hlength : (outer :: around).length ≤ around.length :=
    (suffix_of_mem_layoutAll hmem).length_le
  rw [List.length_cons] at hlength
  omega

theorem layer?_of_mem_held {outer : List Layer} {es : List Expr} {h : Held}
    (hmem : h ∈ held outer es) :
    h.part.layer? = none := by
  obtain ⟨e, -, rfl⟩ := List.mem_map.1 hmem
  rfl

theorem layer?_of_mem_heldHints {outer : List Layer} {es : List Expr} {h : Held}
    (hmem : h ∈ heldHints outer es) :
    h.part.layer? = none := by
  obtain ⟨e, -, rfl⟩ := List.mem_map.1 hmem
  rfl

theorem layout_declare (target hint : Expr) (value : Option Expr) :
    (Stmt.declare target hint value).layout around =
    heldHints around [hint] ++ held around (declaredParts target value) := by
  cases target <;> simp [Stmt.layout, declaredParts]

mutual

/-- A function or class that a statement has directly in its layers is one of its own code. -/
theorem ownDefinition_of_mem_layout {around : List Layer} {part : Part} {l : Layer} {s : Stmt}
    (h : ⟨around, part⟩ ∈ s.layout around) (hl : part.layer? = some l) :
    ∃ selected, OwnDefinition [s] selected l := by
  have hheld : ∀ {es}, (⟨around, part⟩ : Held) ∉ held around es := by
    intro es hmem
    have hnone : part.layer? = none := layer?_of_mem_held hmem
    rw [hnone] at hl
    cases hl
  have hhints : ∀ {es}, (⟨around, part⟩ : Held) ∉ heldHints around es := by
    intro es hmem
    have hnone : part.layer? = none := layer?_of_mem_heldHints hmem
    rw [hnone] at hl
    cases hl
  cases s with
  | function line name parameters decorators body =>
    rw [Stmt.layout, List.mem_append, List.mem_append, List.mem_cons] at h
    rcases h with (h | h) | h | h
    · exact absurd h hheld
    · exact absurd h hhints
    · cases h
      exact ⟨false, .here (List.mem_singleton_self _) hl⟩
    · exact absurd h not_mem_layoutAll_cons
  | classDef line name bases keywords decorators body =>
    rw [Stmt.layout, List.mem_append, List.mem_cons, List.mem_append] at h
    rcases h with h | h | h | h
    · exact absurd h hheld
    · cases h
      exact ⟨false, .here (List.mem_singleton_self _) hl⟩
    · have hnone : part.layer? = none := layer?_of_mem_held h
      rw [hnone] at hl
      cases hl
    · exact absurd h not_mem_layoutAll_cons
  | block form clauses =>
    obtain ⟨selected, hclause⟩ := inClause_of_mem_layoutAll h hl
    exact ⟨_, hclause.ownDefinition form⟩
  | declare target hint value =>
    rw [layout_declare, List.mem_append] at h
    exact absurd h (not_or.2 ⟨hhints, hheld⟩)
  | importModules names => cases h
  | importFrom level module names => cases h
  | assign targets value => exact absurd h hheld
  | augment target value => exact absurd h hheld
  | evaluate value => exact absurd h hheld
  | simple parts => exact absurd h hheld

theorem ownDefinition_of_mem_layoutAll {around : List Layer} {part : Part} {l : Layer}
    {body : List Stmt}
    (h : ⟨around, part⟩ ∈ Stmt.layoutAll around body) (hl : part.layer? = some l) :
    ∃ selected, OwnDefinition body selected l := by
  cases body with
  | nil => cases h
  | cons s rest =>
    rcases List.mem_append.1 h with h | h
    · obtain ⟨selected, hown⟩ := ownDefinition_of_mem_layout h hl
      exact ⟨selected, hown.head⟩
    · obtain ⟨selected, hown⟩ := ownDefinition_of_mem_layoutAll h hl
      exact ⟨selected, hown.cons⟩

theorem inClause_of_mem_layoutAll {around : List Layer} {part : Part} {l : Layer}
    {clauses : List Clause} (h : ⟨around, part⟩ ∈ Clause.layoutAll around clauses)
    (hl : part.layer? = some l) :
    ∃ selected, InClause clauses selected l := by
  match clauses with
  | [] => cases h
  | .mk header body :: rest =>
    rw [Clause.layoutAll, List.mem_append, List.mem_append] at h
    rcases h with (h | h) | h
    · have hnone : part.layer? = none := layer?_of_mem_held h
      rw [hnone] at hl
      cases hl
    · obtain ⟨selected, hown⟩ := ownDefinition_of_mem_layoutAll h hl
      exact ⟨selected, header, body, List.mem_cons_self, hown⟩
    · obtain ⟨selected, hclause⟩ := inClause_of_mem_layoutAll h hl
      exact ⟨selected, hclause.cons⟩

end

theorem layoutAll_eq_flatMap (around : List Layer) (body : List Stmt) :
    Stmt.layoutAll around body = body.flatMap (Stmt.layout around) := by
  induction body with
  | nil => rfl
  | cons s rest ih => rw [Stmt.layoutAll, ih, List.flatMap_cons]

theorem mem_clauses_layoutAll {clauses : List Clause} {header : List Expr} {inner : List Stmt}
    {h : Held} (hclause : .mk header inner ∈ clauses) (hmem : h ∈ Stmt.layoutAll around inner) :
    h ∈ Clause.layoutAll around clauses := by
  induction clauses with
  | nil => cases hclause
  | cons c rest ih =>
    obtain ⟨header', body⟩ := c
    rw [Clause.layoutAll, List.mem_append, List.mem_append]
    rcases List.mem_cons.1 hclause with heq | hclause
    · cases heq
      exact .inl (.inr hmem)
    · exact .inr (ih hclause)

theorem exists_mem_layoutAll {body : List Stmt} {selected : Bool}
    (h : OwnDefinition body selected l) :
    ∃ part, ⟨around, part⟩ ∈ Stmt.layoutAll around body ∧ part.layer? = some l := by
  induction h with
  | @here body s l hs hl =>
    have hpart : ∃ part, ⟨around, part⟩ ∈ s.layout around ∧ part.layer? = some l := by
      cases s with
      | function line name parameters decorators body =>
        exact ⟨.function line name parameters decorators body, by simp [Stmt.layout], hl⟩
      | classDef line name bases keywords decorators body =>
        exact ⟨.classDef line name bases keywords decorators body, by simp [Stmt.layout], hl⟩
      | _ => cases hl
    obtain ⟨part, hmem, hl⟩ := hpart
    refine ⟨part, ?_, hl⟩
    rw [layoutAll_eq_flatMap, List.mem_flatMap]
    exact ⟨s, hs, hmem⟩
  | @inBlock body inner form clauses header selected l hblock hclause _ ih =>
    obtain ⟨part, hmem, hl⟩ := ih
    refine ⟨part, ?_, hl⟩
    rw [layoutAll_eq_flatMap, List.mem_flatMap]
    exact ⟨_, hblock, mem_clauses_layoutAll hclause hmem⟩

end Layout

section Walk

variable {module unit : String} {isPackage : Bool} {body : List Stmt} {facts : List Fact}
    {name : String}

/-- The names under which a walk over a module defines symbols in the module's own scope. -/
def walkedNames (module : String) (isPackage : Bool) (body : List Stmt) : List String :=
  let o := outline module isPackage body
  topNames (walkAll (Place.top module isPackage o.defined) o.imports body).1

/-- The place of a walk is in the module's own code exactly if no layers are around it. -/
theorem Fits.atTop_iff {around : List Layer} {p : Place} (h : Fits module around p) :
    p.atTop = true ↔ around = [] := by
  cases hp : p.inFunction with
  | true =>
    have hany : around.any Layer.isFunction = true := h.inFunction.symm.trans hp
    refine iff_of_false (by simp [Place.atTop, hp]) ?_
    rintro rfl
    cases hany
  | false =>
    have hany : around.any Layer.isFunction = false := h.inFunction.symm.trans hp
    have htop : p.atTop = !isInClass around := by
      rw [← h.inClass hp, Place.atTop, Place.inClass, hp]
      simp
    rw [htop]
    cases around with
    | nil => simp [isInClass]
    | cons l outer =>
      cases l with
      | classDef => simp [isInClass]
      | function => cases hany

theorem topNames_flatMap (vs : List Visit) :
    topNames (vs.flatMap Visit.events) = vs.flatMap fun v => topNames v.events :=
  List.filterMap_flatMap

theorem mem_topNames_classEvents_iff {p : Place} {c : Enclosure} {line : Nat} {id : String}
    {decorators : List Expr} {inner : List Stmt} :
    name ∈ topNames (classEvents p c line id decorators inner) ↔
      p.atTop = true ∧ id = name := by
  unfold classEvents
  dsimp only
  cases isRecord (decoratorNames decorators) c.bases <;> cases p.atTop <;> simp [topNames, eq_comm]

theorem mem_topNames_functionEvent_iff {p : Place} {line : Nat} {id : String}
    {parameters : Parameters} {decorators : List Expr} {inner : List Stmt} :
    name ∈ topNames [functionEvent p line id parameters decorators inner] ↔
      p.atTop = true ∧ id = name := by
  unfold functionEvent
  cases p.atTop with
  | false => simp [topNames]
  | true => simpa [topNames] using eq_comm

/-- Where a walk comes to something, it is told a name of the module's own scope exactly if that is
a function or class in the module's own code. -/
theorem mem_topNames_events_iff {v : Visit} :
    name ∈ topNames v.events ↔
      v.place.atTop = true ∧ ∃ l, v.part.layer? = some l ∧ l.name = name := by
  obtain ⟨⟨around, part⟩, place, names⟩ := v
  have htop : place.inFunction = true → ¬ place.atTop = true := fun hp => by simp [Place.atTop, hp]
  cases part with
  | expression e => simp [Visit.events, topNames, useEvents, Part.layer?]
  | hint e => simp [Visit.events, topNames, Part.layer?]
  | function line id parameters decorators inner =>
    by_cases hp : place.inFunction = true
    · simp [Visit.events, hp, htop hp, topNames]
    · simp [Visit.events, hp, mem_topNames_functionEvent_iff, Part.layer?, Layer.name]
  | classDef line id bases keywords decorators inner =>
    by_cases hp : place.inFunction = true
    · simp [Visit.events, hp, htop hp, topNames]
    · simp [Visit.events, hp, mem_topNames_classEvents_iff, Part.layer?, Layer.name]

/-- A walk comes to the functions and classes of the module's own code with no layers around
them. -/
theorem exists_visit_iff (module : String) (isPackage : Bool) {l : Layer} :
    (∃ v ∈ moduleVisits module isPackage body, v.around = [] ∧ v.part.layer? = some l) ↔
      ∃ selected, OwnDefinition body selected l := by
  have hheld : (moduleVisits module isPackage body).map Visit.toHeld = Stmt.layoutAll [] body :=
    toHeld_visitsAll [] _ _ body
  constructor
  · rintro ⟨⟨⟨around, part⟩, place, names⟩, hv, haround, hl⟩
    have haround : around = [] := haround
    subst haround
    have hmem : ⟨[], part⟩ ∈ Stmt.layoutAll [] body := hheld ▸ List.mem_map_of_mem hv
    exact ownDefinition_of_mem_layoutAll hmem hl
  · rintro ⟨selected, hown⟩
    obtain ⟨part, hmem, hl⟩ := exists_mem_layoutAll hown
    rw [← hheld] at hmem
    obtain ⟨v, hv, heq⟩ := List.mem_map.1 hmem
    have haround : v.around = [] := congrArg Held.around heq
    have hpart : v.part = part := congrArg Held.part heq
    exact ⟨v, hv, haround, hpart ▸ hl⟩

/-- **The walk defines everything in the module's own code**, also what stands in selections. -/
theorem mem_walkedNames_iff :
    name ∈ walkedNames module isPackage body ↔
      ∃ selected l, OwnDefinition body selected l ∧ l.name = name := by
  have hwalked : walkedNames module isPackage body =
      (moduleVisits module isPackage body).flatMap fun v => topNames v.events := by
    rw [walkedNames, walkAll_eq_visits [], topNames_flatMap]
    rfl
  rw [hwalked, List.mem_flatMap]
  constructor
  · rintro ⟨v, hv, hname⟩
    obtain ⟨htop, l, hl, hname⟩ := mem_topNames_events_iff.1 hname
    have haround := (fits_of_mem_moduleVisits v hv).atTop_iff.1 htop
    obtain ⟨selected, hown⟩ := (exists_visit_iff module isPackage).1 ⟨v, hv, haround, hl⟩
    exact ⟨selected, l, hown, hname⟩
  · rintro ⟨selected, l, hown, hname⟩
    obtain ⟨v, hv, haround, hl⟩ := (exists_visit_iff module isPackage).2 ⟨selected, hown⟩
    have htop := (fits_of_mem_moduleVisits v hv).atTop_iff.2 haround
    exact ⟨v, hv, mem_topNames_events_iff.2 ⟨htop, l, hl, hname⟩⟩

/-- What is defined in the module's own code is defined by a fact. -/
theorem layerSymbol_mem_defined (h : factsOf module unit isPackage body = .ok facts)
    {selected : Bool} {l : Layer} (hown : OwnDefinition body selected l) :
    layerSymbol module [] l ∈ facts.filterMap Fact.defined? := by
  obtain ⟨v, hv, haround, hl⟩ := (exists_visit_iff module isPackage).2 ⟨selected, hown⟩
  rw [defined_factsOf h]
  refine List.mem_cons_of_mem _ (List.mem_flatMap.2 ⟨v, hv, ?_⟩)
  obtain ⟨⟨around, part⟩, place, names⟩ := v
  have haround : around = [] := haround
  subst haround
  cases part with
  | expression e => cases hl
  | hint e => cases hl
  | function line name parameters decorators inner =>
    cases hl
    exact List.mem_singleton_self _
  | classDef line name bases keywords decorators inner =>
    cases hl
    exact List.mem_cons_self

end Walk

/-! ## Bare calls -/

/-- What a name is bound to by the functions around a place and by the class that the place is
directly in. -/
def shadowing? (p : Place) (n : Names) (name : String) : Option String :=
  findIn name n.locals <|>
  (if p.inClass then p.classes.head?.bind fun c =>
    if c.members.contains name then some (Dotted.below c.name name) else none else none)

/-- **A name of the outline is always known**: it stands for what the functions and the class around
bind it to, or else for the definition in the module's own scope. -/
theorem resolve?_of_defined {p : Place} {n : Names} {name : String} (h : name ∈ p.defined) :
    resolve? p n name = some ((shadowing? p n name).getD (Dotted.below p.module name)) := by
  have hresolve : resolve? p n name =
      (shadowing? p n name <|> (if p.defined.contains name then some (Dotted.below p.module name)
        else none) <|>
        n.module.find? name) := by
    unfold resolve? shadowing?
    cases findIn name n.locals <;> rfl
  rw [hresolve, if_pos (List.contains_iff_mem.2 h)]
  cases shadowing? p n name <;> rfl

section Calls

variable {module unit : String} {isPackage : Bool} {body : List Stmt} {facts : List Fact}

/-- The place of a walk knows the module and its outline. -/
theorem known_of_mem_moduleVisits : ∀ v ∈ moduleVisits module isPackage body,
    v.place.module = module ∧ v.place.defined = (outline module isPackage body).defined := by
  have hkept : KeptInside fun _ p => p.module = module ∧
      p.defined = (outline module isPackage body).defined := by
    refine ⟨?_, ?_⟩
    · intro _ p hp name parameters decorators
      unfold Place.intoFunction
      split <;> exact hp
    · intro _ p hp n name bases inner
      unfold Place.intoClass
      split <;> exact hp
  exact hkept.of_mem_visitsAll ⟨rfl, rfl⟩ _ body

/-- A bare call of a name of the outline is told. -/
theorem call_mem_facts (h : factsOf module unit isPackage body = .ok facts) {c : CallSite}
    (hc : c ∈ callSites module isPackage body) {line : Nat} {id : String} {use : Use}
    (hname : c.call.function = .name line id use)
    (hid : id ∈ (outline module isPackage body).defined) :
    .call (owner module c.around)
      (calledAs ((shadowing? c.place c.names id).getD (Dotted.below module id)) c.call.argc)
        ⟨unit, c.call.line⟩ ∈ facts := by
  obtain ⟨v, hv, hsite⟩ := List.mem_flatMap.1 hc
  obtain ⟨call, -, rfl⟩ := List.mem_map.1 hsite
  obtain ⟨hmodule, hdefined⟩ := known_of_mem_moduleVisits v hv
  have hresolve := resolve?_of_defined (n := v.names) (hdefined.symm ▸ hid)
  have hcallee : CallSite.callee? ⟨v.around, v.place, v.names, call⟩ =
      some (calledAs ((shadowing? v.place v.names id).getD (Dotted.below module id))
        call.argc) := by
    have hname : call.function = .name line id use := hname
    rw [CallSite.callee?, hname, callee?, hresolve, hmodule]
  have hfact : CallSite.fact? module unit ⟨v.around, v.place, v.names, call⟩ =
    some (.call (owner module v.around)
      (calledAs ((shadowing? v.place v.names id).getD (Dotted.below module id)) call.argc)
        ⟨unit, call.line⟩) := by
    rw [CallSite.fact?, hcallee, Option.map_some]
  have hmem := List.mem_filterMap.2 ⟨_, hc, hfact⟩
  rw [← written_factsOf h] at hmem
  exact (List.mem_filter.1 hmem).1

end Calls

/-- **The outline and the walk.** The outline has the names of what a module defines in its own code
outside of selections; the walk defines all of that in the module's own scope, in selections as
well, and the facts tell of it. So the two agree if and only if every name that is defined in a
selection is also defined outside of one. The walk comes to every call, and tells every bare call of
a name of the outline. -/
theorem outline_exact {module unit : String} {isPackage : Bool} {body : List Stmt}
    {facts : List Fact} (h : factsOf module unit isPackage body = .ok facts) :
    (∀ name, name ∈ (outline module isPackage body).defined ↔ ∃ l, OwnDefinition body false l ∧
      l.name = name) ∧
      (∀ name, name ∈ walkedNames module isPackage body ↔
        ∃ selected l, OwnDefinition body selected l ∧ l.name = name) ∧
      (∀ selected l, OwnDefinition body selected l →
        layerSymbol module [] l ∈ facts.filterMap Fact.defined?) ∧
      ((∀ name, name ∈ (outline module isPackage body).defined ↔
        name ∈ walkedNames module isPackage body) ↔
        ∀ l, OwnDefinition body true l → ∃ l', OwnDefinition body false l' ∧ l'.name = l.name) ∧
      (callSites module isPackage body).map (fun c => (c.around, c.call)) = writtenCalls body ∧
      ∀ c ∈ callSites module isPackage body, ∀ line id use, c.call.function = .name line id use →
        id ∈ (outline module isPackage body).defined →
        .call (owner module c.around)
          (calledAs ((shadowing? c.place c.names id).getD (Dotted.below module id)) c.call.argc)
          ⟨unit, c.call.line⟩ ∈ facts := by
  refine ⟨fun _ => mem_outline_iff, fun _ => mem_walkedNames_iff,
    fun _ _ => layerSymbol_mem_defined h, ?_,
    written_callSites module isPackage body, fun c hc line id use => call_mem_facts h hc⟩
  simp only [mem_outline_iff, mem_walkedNames_iff]
  constructor
  · intro hagree l hl
    exact (hagree l.name).2 ⟨true, l, hl, rfl⟩
  · intro hselected name
    constructor
    · rintro ⟨l, hl, hname⟩
      exact ⟨false, l, hl, hname⟩
    · rintro ⟨selected, l, hl, rfl⟩
      cases selected with
      | false => exact ⟨l, hl, rfl⟩
      | true => exact hselected l hl

/-- A branch that defines `f`, a selection that defines `g` and, once more, `f`, and calls of
both. -/
def chosen : List Stmt :=
  [.block .branch [.mk [.constant] [.function 2 "f" {} [] [.simple []]]],
    .block .select [.mk [.constant] [], .mk [.constant]
      [.function 5 "g" {} [] [.simple []],
        .function 6 "f" { positional := ["x"] } [] [.simple []]]],
    .evaluate (.call 7 (.name 7 "f" .load) [] []),
    .evaluate (.call 8 (.name 8 "g" .load) [] [])]

/-- **A function in a selection is missed**: `g` is defined in the module's own scope, but the
outline does not have it, and the call of it is lost. That of `f` is told, since `f` is also defined
outside. -/
theorem selection_missed : ∃ facts, factsOf "m" "m.py" false chosen = .ok facts ∧
    ⟨"m", "g", 0⟩ ∈ facts.filterMap Fact.defined? ∧
    "g" ∈ walkedNames "m" false chosen ∧ "g" ∉ (outline "m" false chosen).defined ∧
    "f" ∈ (outline "m" false chosen).defined ∧
    (∃ name, ¬ (name ∈ (outline "m" false chosen).defined ↔ name ∈ walkedNames "m" false chosen)) ∧
    .call (.body "m") ⟨"m", "f", -2⟩ ⟨"m.py", 7⟩ ∈ facts ∧
    facts.filter isWrittenCall = [.call (.body "m") ⟨"m", "f", -2⟩ ⟨"m.py", 7⟩] := by
  have hok : (factsOf "m" "m.py" false chosen).toBool = true := by decide +kernel
  obtain ⟨facts, hfacts⟩ := exists_ok_of_toBool hok
  obtain ⟨houtline, hwalked, hdefined, hagree, -, hcalls⟩ := outline_exact hfacts
  have hf : OwnDefinition chosen false (.function "f" {} []) :=
    .inBlock List.mem_cons_self List.mem_cons_self (.here List.mem_cons_self rfl)
  have hg : OwnDefinition chosen true (.function "g" {} []) :=
    .inBlock (List.mem_cons_of_mem _ List.mem_cons_self) (List.mem_cons_of_mem _ List.mem_cons_self)
      (.here List.mem_cons_self rfl)
  have hmissed : "g" ∉ (outline "m" false chosen).defined := by decide +kernel
  have hkept : "f" ∈ (outline "m" false chosen).defined := (houtline "f").2 ⟨_, hf, rfl⟩
  refine ⟨facts, hfacts, hdefined true _ hg, (hwalked "g").2 ⟨true, _, hg, rfl⟩, hmissed, hkept, ?_,
    ?_, ?_⟩
  · by_contra hnone
    push Not at hnone
    obtain ⟨l, hl, hname⟩ := hagree.1 hnone _ hg
    exact hmissed ((houtline "g").2 ⟨l, hl, hname⟩)
  · exact hcalls _ (List.getElem_mem (n := 0) (by decide +kernel)) 7 "f" .load rfl hkept
  · rw [written_factsOf hfacts]
    rfl

end Collect

end Deadwood
