import Deadwood.Proofs.Layout
import Deadwood.Proofs.Occurrences

/-!
# The definitions of a module

The facts of a module define its own code and then, in the order in which they are written, its
functions and classes that are not inside a function. The layers around a definition give its
symbol: the classes its scope, and the innermost one whether there is a receiver to leave out.

* `Visit.symbols` is what a function or class defines, `Visit.links` the call from a record class to
  the initializer of its fields, and `Visit.used` what an expression uses.
* `defined_factsOf` and `filter_factsOf`: these are the definitions and the calls of a module, in
  order.
* `CallersDefined`: whoever uses something was defined before (`callersDefined_walk`).
* `definitions_exact`: the definitions of a module in full.
-/

namespace Deadwood

/-- What is called. -/
def Fact.callee? : Fact → Option Symbol
  | .definition .. => none
  | .call _ callee _ => some callee

namespace Collect

open Source

/-! ## What is told at a visit -/

namespace Visit

/-- Whether a class with these bases and decorators is a record, where a walk comes to it. -/
def isRecordClass (v : Visit) (bases decorators : List Expr) : Bool :=
  isRecord (decoratorNames decorators) (baseNames v.place v.names bases)

/-- The symbols that something in a module defines; nothing inside a function does. -/
def symbols (module : String) (v : Visit) : List Symbol :=
  if v.around.any Layer.isFunction then [] else
    match v.part with
    | .function _ name parameters decorators _ =>
      [functionIn module v.around name parameters decorators]
    | .classDef _ name bases _ decorators _ =>
      let c := scopeIn module (.classDef name :: v.around)
      .classOf c :: if v.isRecordClass bases decorators then [.fieldsOf c] else []
    | _ => []

/-- The call that a record class makes to the initializer of its fields. -/
def links (module unit : String) (v : Visit) : List Fact :=
  if v.around.any Layer.isFunction then [] else
    match v.part with
    | .classDef line name bases _ decorators _ =>
      let c := scopeIn module (.classDef name :: v.around)
      if v.isRecordClass bases decorators
        then [.call (.classOf c) (.fieldsOf c) ⟨unit, line⟩] else []
    | _ => []

/-- The calls that tell what an expression uses. -/
def used (module unit : String) (v : Visit) : List Fact :=
  match v.part with
  | .expression e =>
    (uses v.place v.names e).map fun u => .call (owner module v.around) u.target ⟨unit, u.line⟩
  | _ => []

end Visit

/-- The symbol that an event defines. -/
def Event.defined? : Event → Option Symbol
  | .define s _ _ _ => some s
  | .use .. => none

/-- The call that an event tells. -/
def Event.call? (unit : String) : Event → Option Fact
  | .define .. => none
  | .use caller callee line => some (.call caller callee ⟨unit, line⟩)

section Events

variable (p : Place) (unit : String)

@[simp] theorem defined_useEvents (n : Names) (es : List Expr) :
    (useEvents p n es).filterMap Event.defined? = [] := by
  simp [useEvents, List.filterMap_map, Event.defined?, Function.comp_def]

@[simp] theorem calls_useEvents (n : Names) (e : Expr) :
    (useEvents p n [e]).filterMap (Event.call? unit) =
    (uses p n e).map fun u => .call p.caller u.target ⟨unit, u.line⟩ := by
  simp [useEvents, usesAll, List.filterMap_map, Event.call?, Function.comp_def]

variable (c : Enclosure) (line : Nat) (name : String) (decorators : List Expr) (body : List Stmt)

@[simp] theorem defined_classEvents :
    (classEvents p c line name decorators body).filterMap Event.defined? =
    .classOf c.name :: if isRecord (decoratorNames decorators) c.bases then [.fieldsOf c.name]
      else [] := by
  unfold classEvents
  dsimp only
  cases isRecord (decoratorNames decorators) c.bases <;> rfl

@[simp] theorem calls_classEvents :
    (classEvents p c line name decorators body).filterMap (Event.call? unit) =
    if isRecord (decoratorNames decorators) c.bases
      then [.call (.classOf c.name) (.fieldsOf c.name) ⟨unit, line⟩]
    else [] := by
  unfold classEvents
  dsimp only
  cases isRecord (decoratorNames decorators) c.bases <;> rfl

end Events

section Visit

variable {module : String} {v : Visit}

/-- Where a walk comes to something, it is told what that defines. -/
theorem defined_events (h : Fits module v.around v.place) :
    v.events.filterMap Event.defined? = v.symbols module := by
  obtain ⟨⟨around, part⟩, place, names⟩ := v
  cases part with
  | expression e => simp [Visit.events, Visit.symbols]
  | hint e => simp [Visit.events, Visit.symbols]
  | function line name parameters decorators body =>
    rw [Visit.symbols, ← h.inFunction, Visit.events]
    cases hp : place.inFunction with
    | true => rfl
    | false =>
      have hsymbol := h.functionSymbol_eq hp name parameters decorators
      simpa [functionEvent, Event.defined?] using hsymbol
  | classDef line name bases keywords decorators body =>
    rw [Visit.symbols, ← h.inFunction, Visit.events]
    cases hp : place.inFunction with
    | true => rfl
    | false =>
      have hscope : (enclosure place names name bases body).name =
          scopeIn module (.classDef name :: around) :=
        h.below_scope hp name
      simp only [Bool.false_eq_true, ↓reduceIte, defined_classEvents, hscope]
      rfl

/-- Where a walk comes to something, it is told what that uses and the call of a record class. -/
theorem calls_events (h : Fits module v.around v.place) (unit : String) :
    v.events.filterMap (Event.call? unit) = v.used module unit ++ v.links module unit := by
  obtain ⟨⟨around, part⟩, place, names⟩ := v
  cases part with
  | expression e =>
    have hcaller : place.caller = owner module around := h.caller
    simp [Visit.events, Visit.used, Visit.links, hcaller]
  | hint e => simp [Visit.events, Visit.used, Visit.links]
  | function line name parameters decorators body =>
    rw [Visit.links, ← h.inFunction, Visit.events]
    cases place.inFunction <;> rfl
  | classDef line name bases keywords decorators body =>
    rw [Visit.links, ← h.inFunction, Visit.events]
    cases hp : place.inFunction with
    | true => rfl
    | false =>
      have hscope : (enclosure place names name bases body).name =
          scopeIn module (.classDef name :: around) :=
        h.below_scope hp name
      simp only [Bool.false_eq_true, ↓reduceIte, calls_classEvents, hscope]
      rfl

/-- What is used is not resolved. -/
theorem arity_of_mem_used {unit : String} {caller callee : Symbol} {site : Location}
    (h : .call caller callee site ∈ v.used module unit) : callee.arity < 0 := by
  unfold Visit.used at h
  split at h
  · obtain ⟨u, hu, heq⟩ := List.mem_map.1 h
    cases heq
    exact arity_of_mem_uses u hu
  · cases h

/-- The initializer of fields is resolved. -/
theorem arity_of_mem_links {unit : String} {f : Fact} (h : f ∈ v.links module unit) :
    ∃ caller callee site, f = .call caller callee site ∧ callee.arity = 1 := by
  unfold Visit.links at h
  split at h
  · cases h
  · split at h
    · split at h
      · obtain rfl := List.mem_singleton.1 h
        exact ⟨_, _, _, rfl, rfl⟩
      · cases h
    · cases h

end Visit

/-! ## Whoever uses something was defined before -/

/-- Every use is by one of the given symbols or by one that was defined before. -/
def CallersDefined : List Symbol → List Event → Prop
  | _, [] => True
  | defined, .define s _ _ _ :: rest => CallersDefined (s :: defined) rest
  | defined, .use caller _ _ :: rest => caller ∈ defined ∧ CallersDefined defined rest

namespace CallersDefined

variable {defined defined' : List Symbol} {events events' : List Event}

theorem mono (h : CallersDefined defined events) (hsub : defined ⊆ defined') :
    CallersDefined defined' events := by
  induction events generalizing defined defined' with
  | nil => trivial
  | cons e rest ih =>
    cases e with
    | define s info doc top => exact ih h (List.cons_subset_cons s hsub)
    | use caller callee line => exact ⟨hsub h.1, ih h.2 hsub⟩

theorem append (h : CallersDefined defined events) (h' : CallersDefined defined events') :
    CallersDefined defined (events ++ events') := by
  induction events generalizing defined with
  | nil => exact h'
  | cons e rest ih =>
    cases e with
    | define s info doc top => exact ih h (h'.mono (List.subset_cons_self s defined))
    | use caller callee line => exact ⟨h.1, ih h.2 h'⟩

end CallersDefined

section Walk

variable {defined : List Symbol}

theorem callersDefined_useEvents {p : Place} (hp : p.caller ∈ defined) (n : Names)
    (es : List Expr) :
    CallersDefined defined (useEvents p n es) := by
  unfold useEvents
  induction usesAll p n es with
  | nil => trivial
  | cons u rest ih => exact ⟨hp, ih⟩

/-- Behind its definitions a class may use something. -/
theorem callersDefined_class {events : List Event} {c : Enclosure}
    (h : CallersDefined (.classOf c.name :: defined) events) (p : Place) (line : Nat)
    (name : String) (decorators : List Expr) (body : List Stmt) :
    CallersDefined defined (classEvents p c line name decorators body ++ events) := by
  unfold classEvents
  dsimp only
  cases isRecord (decoratorNames decorators) c.bases with
  | true =>
    have hsub := List.subset_cons_self (Symbol.fieldsOf c.name) (.classOf c.name :: defined)
    exact ⟨hsub List.mem_cons_self, h.mono hsub⟩
  | false => exact h

mutual

/-- **Whoever uses something in a statement** is the owner of the statement or was defined in it
before. -/
theorem callersDefined_walk {defined : List Symbol} {p : Place} (hp : p.caller ∈ defined)
    (n : Names) (s : Stmt) :
    CallersDefined defined (walk p n s).1 := by
  cases s with
  | function line name parameters decorators body =>
    have houter := callersDefined_useEvents hp n
      (decorators ++ parameters.defaults ++ parameters.keywordDefaults)
    rw [walk]
    split
    · exact houter.append (callersDefined_walkAll hp n.push body)
    · have hbody : CallersDefined (functionSymbol p name parameters decorators :: defined) _ :=
        callersDefined_walkAll (p := p.insideFunction _) List.mem_cons_self n.push body
      exact houter.append hbody
  | classDef line name bases keywords decorators body =>
    have houter := callersDefined_useEvents hp n decorators
    rw [walk]
    split
    · exact (houter.append (callersDefined_useEvents hp n _)).append
        (callersDefined_walkAll hp n body)
    · have hinside : (p.insideClass (enclosure p n name bases body)).caller ∈
          Symbol.classOf (enclosure p n name bases body).name :: defined := List.mem_cons_self
      have hrest := (callersDefined_useEvents hinside n (bases ++ keywords)).append
        (callersDefined_walkAll hinside n body)
      simp only [List.append_assoc]
      exact houter.append (callersDefined_class hrest p line name decorators body)
  | block form clauses => exact callersDefined_walkClauses hp n clauses
  | importModules names => trivial
  | importFrom level module names => trivial
  | assign targets value => exact callersDefined_useEvents hp _ _
  | augment target value => exact callersDefined_useEvents hp n _
  | declare target hint value => exact callersDefined_useEvents hp n _
  | evaluate value => exact callersDefined_useEvents hp n _
  | simple parts => exact callersDefined_useEvents hp n _

theorem callersDefined_walkAll {defined : List Symbol} {p : Place} (hp : p.caller ∈ defined)
    (n : Names) (body : List Stmt) : CallersDefined defined (walkAll p n body).1 := by
  cases body with
  | nil => trivial
  | cons s rest => exact (callersDefined_walk hp n s).append (callersDefined_walkAll hp _ rest)

theorem callersDefined_walkClauses {defined : List Symbol} {p : Place} (hp : p.caller ∈ defined)
    (n : Names) (clauses : List Clause) : CallersDefined defined (walkClauses p n clauses).1 := by
  match clauses with
  | [] => trivial
  | .mk header body :: rest =>
    exact ((callersDefined_useEvents hp n header).append (callersDefined_walkAll hp n body)).append
      (callersDefined_walkClauses hp _ rest)

end

end Walk

/-- The caller of a fact is one of the given symbols or is defined by a fact before it. -/
theorem CallersDefined.exists_definition {defined : List Symbol} {events : List Event}
    {unit : String} {names : List String} {facts before after : List Fact} {caller callee : Symbol}
    {site : Location} (h : CallersDefined defined events)
    (hfacts : List.Forall₂ (fun e f => eventFact unit names e = .ok f) events facts)
    (hsplit : facts = before ++ .call caller callee site :: after) :
    caller ∈ defined ∨ ∃ info, .definition caller info ∈ before := by
  induction hfacts generalizing defined before with
  | nil => simp at hsplit
  | cons hfact _ ih =>
    obtain ⟨s, info, doc, top, value, rfl, -, rfl⟩ | ⟨caller', callee', line, rfl, rfl⟩ :=
      eventFact_cases hfact
    · cases before with
      | nil => cases hsplit
      | cons b before =>
        cases hsplit
        obtain hmem | ⟨info, hmem⟩ := ih h rfl
        · obtain rfl | hmem := List.mem_cons.1 hmem
          · exact .inr ⟨_, List.mem_cons_self⟩
          · exact .inl hmem
        · exact .inr ⟨info, List.mem_cons_of_mem _ hmem⟩
    · cases before with
      | nil =>
        cases hsplit
        exact .inl h.1
      | cons b before =>
        cases hsplit
        exact (ih h.2 rfl).imp_right fun ⟨info, hmem⟩ => ⟨info, List.mem_cons_of_mem _ hmem⟩

/-! ## The facts of a module -/

section Module

variable {module unit : String} {isPackage : Bool} {body : List Stmt} {facts : List Fact}

/-- The definitions among the facts of a module. -/
theorem defined_factsOf (h : factsOf module unit isPackage body = .ok facts) :
    facts.filterMap Fact.defined? =
    .body module :: (moduleVisits module isPackage body).flatMap (Visit.symbols module) := by
  obtain ⟨reexports, imports, names, hfacts⟩ := told_factsOf h
  have hevents : ∀ e f, eventFact unit names e = .ok f → e.defined? = f.defined? := by
    intro e f hf
    obtain ⟨s, info, doc, top, value, rfl, -, rfl⟩ | ⟨caller, callee, line, rfl, rfl⟩ :=
      eventFact_cases hf
    · rfl
    · rfl
  rw [← filterMap_eq_of_forall₂ hfacts hevents, List.filterMap_cons, List.filterMap_flatMap]
  exact congrArg _ (List.flatMap_congr fun v hv => defined_events (fits_of_mem_moduleVisits v hv))

/-- The calls of some kind among the facts of a module. -/
theorem filter_factsOf (h : factsOf module unit isPackage body = .ok facts) {q : Fact → Bool}
    (hq : ∀ s info, q (.definition s info) = false) : facts.filter q =
      (moduleVisits module isPackage body).flatMap fun v =>
        (v.used module unit ++ v.links module unit).filter q := by
  obtain ⟨reexports, imports, names, hfacts⟩ := told_factsOf h
  have hevents : ∀ e f, eventFact unit names e = .ok f → (e.call? unit).filter q =
      Option.guard q f := by
    intro e f hf
    obtain ⟨s, info, doc, top, value, rfl, -, rfl⟩ | ⟨caller, callee, line, rfl, rfl⟩ :=
      eventFact_cases hf
    · simp [Event.call?, Option.guard, hq]
    · simp [Event.call?, Option.guard, Option.filter]
  have hvisit : ∀ v ∈ moduleVisits module isPackage body,
    v.events.filterMap (fun e => (e.call? unit).filter q) =
      (v.used module unit ++ v.links module unit).filter q := by
    intro v hv
    rw [← calls_events (fits_of_mem_moduleVisits v hv) unit, List.filter_filterMap]
  calc facts.filter q
      = facts.filterMap (Option.guard q) := by rw [List.filterMap_eq_filter]
    _ = ((moduleVisits module isPackage body).flatMap Visit.events).filterMap fun e =>
      (e.call? unit).filter q :=
        (filterMap_eq_of_forall₂ hfacts hevents).symm
    _ = (moduleVisits module isPackage body).flatMap fun v => v.events.filterMap fun e =>
      (e.call? unit).filter q :=
        List.filterMap_flatMap
    _ = (moduleVisits module isPackage body).flatMap fun v =>
      (v.used module unit ++ v.links module unit).filter q :=
        List.flatMap_congr hvisit

/-- The calls of initializers among the facts of a module. -/
theorem links_factsOf (h : factsOf module unit isPackage body = .ok facts) :
    facts.filter (fun f => f.callee?.any (0 ≤ ·.arity)) =
      (moduleVisits module isPackage body).flatMap (Visit.links module unit) := by
  rw [filter_factsOf h fun _ _ => rfl]
  refine List.flatMap_congr fun v _ => ?_
  rw [List.filter_append, List.filter_eq_nil_iff.2, List.filter_eq_self.2, List.nil_append]
  · intro f hf
    obtain ⟨caller, callee, site, rfl, harity⟩ := arity_of_mem_links hf
    simp [Fact.callee?, harity]
  · intro f hf
    cases f with
    | definition s info => simp [Fact.callee?]
    | call caller callee site => simpa [Fact.callee?] using arity_of_mem_used hf

/-- **The definitions of a module** are its own code and then, for each function and class outside
of functions in the order of the text, what that defines; each record class calls the initializer of
its fields, and every call is made by something that is defined before it. -/
theorem definitions_exact (h : factsOf module unit isPackage body = .ok facts) :
    (moduleVisits module isPackage body).map Visit.toHeld = Stmt.layoutAll [] body ∧
      facts.filterMap Fact.defined? =
        .body module :: (moduleVisits module isPackage body).flatMap (Visit.symbols module) ∧
      facts.filter (fun f => f.callee?.any (0 ≤ ·.arity)) =
        (moduleVisits module isPackage body).flatMap (Visit.links module unit) ∧
      ∀ before caller callee site after, facts = before ++ .call caller callee site :: after →
        ∃ info, .definition caller info ∈ before := by
  refine ⟨toHeld_visitsAll [] _ _ body, defined_factsOf h, links_factsOf h,
    fun before caller callee site after hsplit => ?_⟩
  obtain ⟨reexports, imports, names, hfacts⟩ := told_factsOf h
  have hwalk :=
    callersDefined_walkAll (p := Place.top module isPackage (outline module isPackage body).defined)
    (List.mem_singleton_self _) (outline module isPackage body).imports body
  rw [walkAll_eq_visits []] at hwalk
  have hall : CallersDefined [] (bodyEvent module body reexports imports ::
      (moduleVisits module isPackage body).flatMap Visit.events) := hwalk
  exact (hall.exists_definition hfacts hsplit).resolve_left List.not_mem_nil

end Module

/-- A branch with the record class `Order`, which has a method, a static method and a class inside,
and a function with a function and a class inside. -/
def orders : List Stmt :=
  [.block .branch [.mk [.constant]
    [.classDef 3 "Order" [] [] [.call 2 (.name 2 "dataclass" .load) [] []]
      [.function 4 "total" { positional := ["self", "rate"] } [] [.simple [.constant]],
        .function 7 "parse" { positional := ["text"] } [.name 6 "staticmethod" .load]
          [.simple [.constant]],
        .classDef 9 "Line" [] [] []
          [.function 10 "price" { positional := ["self"] } [] [.simple [.constant]]]]]],
    .function 12 "load" { positional := ["path"] } []
      [.function 13 "read" {} [] [.evaluate (.call 14 (.name 14 "load" .load) [.constant] [])],
        .classDef 15 "Local" [] [] []
          [.function 16 "run" { positional := ["self"] } [] [.simple []]]]]

theorem orders_defined : ∃ facts, factsOf "shop" "shop.py" false orders = .ok facts ∧
    facts.filterMap Fact.defined? = [.body "shop", .classOf "shop.Order", .fieldsOf "shop.Order",
      ⟨"shop.Order", "total", 1⟩, ⟨"shop.Order", "parse", 1⟩, .classOf "shop.Order.Line",
      ⟨"shop.Order.Line", "price", 0⟩, ⟨"shop", "load", 1⟩] ∧
    facts.filter (fun f => f.callee?.any (0 ≤ ·.arity)) =
      [.call (.classOf "shop.Order") (.fieldsOf "shop.Order") ⟨"shop.py", 3⟩] ∧
    ∀ before caller callee site after, facts = before ++ .call caller callee site :: after →
      ∃ info, .definition caller info ∈ before := by
  have hok : (factsOf "shop" "shop.py" false orders).toBool = true := by decide +kernel
  obtain ⟨facts, hfacts⟩ := exists_ok_of_toBool hok
  obtain ⟨-, hdefined, hlinks, hcallers⟩ := definitions_exact hfacts
  refine ⟨facts, hfacts, hdefined.trans ?_, hlinks.trans ?_, hcallers⟩
  · decide +kernel
  · rfl

end Collect

end Deadwood
