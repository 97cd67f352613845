import Deadwood.Collect
import Deadwood.Proofs.Dotted
import Deadwood.Proofs.Traversal

/-!
# Where things stand in a module

A walk over a module carries along where it is and which names are known. This module says without a
walk what stands in a module and which definitions are around it, and then what a walk knows when it
comes there.

* `Stmt.layout` lists the expressions, annotations, functions and classes of a statement in the
  order in which they are written, each with the layers around it.
* `owner` is the definition that owns what stands in some layers: the outermost function, or else
  the innermost class, or else the module's own code.
* `visits` is the same list with the place and the names of a walk (`toHeld_visits`), and a walk
  tells what it is told at one visit after the other (`walk_eq_visits`).
* `Fits`: the place of a walk is that of the layers around it. `KeptInside`: what is kept on the way
  into functions and classes holds wherever a walk comes.
* `told_factsOf`: the facts of a module are what is told at one visit after the other.
-/

namespace Deadwood.Source

/-! ## What stands in a module -/

/-- A definition around something in a module. -/
inductive Layer where
  | function (name : String) (parameters : Parameters) (decorators : List Expr)
  | classDef (name : String)

namespace Layer

/-- The name of the definition. -/
def name : Layer → String
  | .function name .. => name
  | .classDef name => name

/-- Whether the definition is a function. -/
def isFunction : Layer → Bool
  | .function .. => true
  | .classDef _ => false

end Layer

/-- What stands in a module. -/
inductive Part where
  | expression (e : Expr)
  /-- An annotation. -/
  | hint (e : Expr)
  | function (line : Nat) (name : String) (parameters : Parameters) (decorators : List Expr)
    (body : List Stmt)
  | classDef (line : Nat) (name : String) (bases keywords decorators : List Expr) (body : List Stmt)

/-- Something in a module and the layers around it, innermost first. -/
structure Held where
  around : List Layer
  part : Part

/-- Expressions in some layers. -/
def held (around : List Layer) (es : List Expr) : List Held :=
  es.map fun e => ⟨around, .expression e⟩

/-- Annotations in some layers. -/
def heldHints (around : List Layer) (es : List Expr) : List Held :=
  es.map fun e => ⟨around, .hint e⟩

mutual

/-- What stands in a statement. Decorators and defaults stand around their definition, bases and
keywords inside their class; a name that is declared does not count as an expression. -/
def Stmt.layout (around : List Layer) : Stmt → List Held
  | .function line name parameters decorators body =>
    held around (decorators ++ parameters.defaults ++ parameters.keywordDefaults) ++
      heldHints around parameters.hints ++
      ⟨around, .function line name parameters decorators body⟩ ::
      Stmt.layoutAll (.function name parameters decorators :: around) body
  | .classDef line name bases keywords decorators body =>
    held around decorators ++
      ⟨around, .classDef line name bases keywords decorators body⟩ ::
      (held (.classDef name :: around) (bases ++ keywords) ++
        Stmt.layoutAll (.classDef name :: around) body)
  | .importModules _ => []
  | .importFrom .. => []
  | .assign targets value => held around (targets ++ [value])
  | .augment target value => held around [target, value]
  | .declare (.name ..) hint value => heldHints around [hint] ++ held around value.toList
  | .declare target hint value => heldHints around [hint] ++ held around (target :: value.toList)
  | .evaluate value => held around [value]
  | .simple parts => held around parts
  | .block _ clauses => Clause.layoutAll around clauses

/-- What stands in statements, one after the other. -/
def Stmt.layoutAll (around : List Layer) : List Stmt → List Held
  | [] => []
  | s :: rest => s.layout around ++ Stmt.layoutAll around rest

/-- What stands in clauses, one after the other. -/
def Clause.layoutAll (around : List Layer) : List Clause → List Held
  | [] => []
  | .mk header body :: rest =>
    held around header ++ Stmt.layoutAll around body ++ Clause.layoutAll around rest

end

end Deadwood.Source

namespace Deadwood.Collect

open Source

/-! ## Scopes and owners -/

/-- The dotted name that classes around something give it, the module's own at the front. -/
def scopeIn (module : String) (around : List Layer) : String :=
  Dotted.join (module :: (around.map Layer.name).reverse)

/-- Whether something stands directly in a class. -/
def isInClass : List Layer → Bool
  | .classDef _ :: _ => true
  | _ => false

/-- The number of parameters that a function takes by position; the receiver of a method does not
count. -/
def arityIn (around : List Layer) (parameters : Parameters) (decorators : List Expr) : Nat :=
  let n := parameters.positional.length
  if isInClass around = true ∧ 0 < n ∧ isStatic decorators = false then n - 1 else n

/-- The symbol of a function with only classes around it. -/
def functionIn (module : String) (around : List Layer) (name : String) (parameters : Parameters)
    (decorators : List Expr) : Symbol :=
  ⟨scopeIn module around, name, arityIn around parameters decorators⟩

/-- The symbol of a definition with only classes around it. -/
def layerSymbol (module : String) (around : List Layer) : Layer → Symbol
  | .function name parameters decorators => functionIn module around name parameters decorators
  | .classDef name => .classOf (scopeIn module (.classDef name :: around))

/-- The definition that owns what stands in some layers: the outermost function, or else the
innermost class, or else the module's own code. -/
def owner (module : String) : List Layer → Symbol
  | [] => .body module
  | l :: outer =>
    if outer.any Layer.isFunction then owner module outer else layerSymbol module outer l

/-! ## What is known where -/

namespace Place

/-- The place in the body of a function; a function inside a function is no place of its own. -/
def intoFunction (p : Place) (name : String) (parameters : Parameters) (decorators : List Expr) :
    Place :=
  if p.inFunction then p else p.insideFunction (functionSymbol p name parameters decorators)

/-- The place in the body of a class; a class inside a function is no place of its own. -/
def intoClass (p : Place) (n : Names) (name : String) (bases : List Expr) (body : List Stmt) :
    Place :=
  if p.inFunction then p else p.insideClass (enclosure p n name bases body)

end Place

mutual

/-- The names that are known behind a statement: imports and aliases are added, and what a function
imports is forgotten. -/
def known (p : Place) (n : Names) : Stmt → Names
  | .function .. => n
  | .classDef _ name bases _ _ body => knownAll (p.intoClass n name bases body) n body
  | .importModules names => n.register p (.importModules names)
  | .importFrom level module names => n.register p (.importFrom level module names)
  | .assign targets value => aliasAssigned p n targets value
  | .augment .. => n
  | .declare .. => n
  | .evaluate _ => n
  | .simple _ => n
  | .block _ clauses => knownClauses p n clauses

/-- The names that are known behind statements. -/
def knownAll (p : Place) (n : Names) : List Stmt → Names
  | [] => n
  | s :: rest => knownAll p (known p n s) rest

/-- The names that are known behind clauses. -/
def knownClauses (p : Place) (n : Names) : List Clause → Names
  | [] => n
  | .mk _ body :: rest => knownClauses p (knownAll p n body) rest

end

/-- Something in a module, and the place and the names that a walk has when it comes there. -/
structure Visit extends Held where
  place : Place
  names : Names

/-- Expressions that a walk comes to. -/
def visited (around : List Layer) (p : Place) (n : Names) (es : List Expr) : List Visit :=
  (held around es).map fun h => ⟨h, p, n⟩

/-- Annotations that a walk passes. -/
def visitedHints (around : List Layer) (p : Place) (n : Names) (es : List Expr) : List Visit :=
  (heldHints around es).map fun h => ⟨h, p, n⟩

mutual

/-- What a walk over a statement comes to. -/
def visits (around : List Layer) (p : Place) (n : Names) : Stmt → List Visit
  | .function line name parameters decorators body =>
    visited around p n (decorators ++ parameters.defaults ++ parameters.keywordDefaults) ++
      visitedHints around p n parameters.hints ++
      ⟨⟨around, .function line name parameters decorators body⟩, p, n⟩ ::
      visitsAll (.function name parameters decorators :: around)
        (p.intoFunction name parameters decorators) n.push body
  | .classDef line name bases keywords decorators body =>
    let inside := p.intoClass n name bases body
    visited around p n decorators ++
      ⟨⟨around, .classDef line name bases keywords decorators body⟩, p, n⟩ ::
      (visited (.classDef name :: around) inside n (bases ++ keywords) ++
        visitsAll (.classDef name :: around) inside n body)
  | .importModules _ => []
  | .importFrom .. => []
  | .assign targets value => visited around p (aliasAssigned p n targets value) (targets ++ [value])
  | .augment target value => visited around p n [target, value]
  | .declare target hint value =>
    visitedHints around p n [hint] ++ visited around p n (declaredParts target value)
  | .evaluate value => visited around p n [value]
  | .simple parts => visited around p n parts
  | .block _ clauses => visitsClauses around p n clauses

/-- What a walk over statements comes to. -/
def visitsAll (around : List Layer) (p : Place) (n : Names) : List Stmt → List Visit
  | [] => []
  | s :: rest => visits around p n s ++ visitsAll around p (known p n s) rest

/-- What a walk over clauses comes to. -/
def visitsClauses (around : List Layer) (p : Place) (n : Names) : List Clause → List Visit
  | [] => []
  | .mk header body :: rest =>
    visited around p n header ++ visitsAll around p n body ++
      visitsClauses around p (knownAll p n body) rest

end

/-- What a walk over a module comes to. -/
def moduleVisits (module : String) (isPackage : Bool) (body : List Stmt) : List Visit :=
  let o := outline module isPackage body
  visitsAll [] (Place.top module isPackage o.defined) o.imports body

/-! ## A walk comes to everything once -/

section Visits

variable (around : List Layer) (p : Place) (n : Names)

@[simp] theorem toHeld_visited (es : List Expr) :
    (visited around p n es).map Visit.toHeld = held around es := by
  simp [visited, Function.comp_def]

@[simp] theorem toHeld_visitedHints (es : List Expr) :
    (visitedHints around p n es).map Visit.toHeld = heldHints around es := by
  simp [visitedHints, Function.comp_def]

mutual

/-- **A walk over a statement comes to everything in it once, in order.** -/
theorem toHeld_visits (around : List Layer) (p : Place) (n : Names) (s : Stmt) :
    (visits around p n s).map Visit.toHeld = s.layout around := by
  cases s with
  | function line name parameters decorators body =>
    simp [visits, Stmt.layout,
      toHeld_visitsAll (.function name parameters decorators :: around) _ n.push body]
  | classDef line name bases keywords decorators body =>
    simp [visits, Stmt.layout, toHeld_visitsAll (.classDef name :: around) _ n body]
  | declare target hint value => cases target <;> simp [visits, Stmt.layout, declaredParts]
  | block form clauses => exact toHeld_visitsClauses around p n clauses
  | importModules names => rfl
  | importFrom level module names => rfl
  | assign targets value => exact toHeld_visited ..
  | augment target value => exact toHeld_visited ..
  | evaluate value => exact toHeld_visited ..
  | simple parts => exact toHeld_visited ..

theorem toHeld_visitsAll (around : List Layer) (p : Place) (n : Names) (body : List Stmt) :
    (visitsAll around p n body).map Visit.toHeld = Stmt.layoutAll around body := by
  cases body with
  | nil => rfl
  | cons s rest =>
    simp [visitsAll, Stmt.layoutAll, toHeld_visits around p n s, toHeld_visitsAll around p _ rest]

theorem toHeld_visitsClauses (around : List Layer) (p : Place) (n : Names) (clauses : List Clause) :
    (visitsClauses around p n clauses).map Visit.toHeld = Clause.layoutAll around clauses := by
  match clauses with
  | [] => rfl
  | .mk header body :: rest =>
    simp [visitsClauses, Clause.layoutAll, toHeld_visitsAll around p n body,
      toHeld_visitsClauses around p _ rest]

end

end Visits

/-! ## What a walk tells -/

/-- What a walk tells where it comes to something. -/
def Visit.events (v : Visit) : List Event :=
  match v.part with
  | .expression e => useEvents v.place v.names [e]
  | .hint _ => []
  | .function line name parameters decorators body =>
    if v.place.inFunction then [] else [functionEvent v.place line name parameters decorators body]
  | .classDef line name bases _ decorators body =>
    if v.place.inFunction then []
    else classEvents v.place (enclosure v.place v.names name bases body) line name decorators body

theorem usesAll_eq_flatMap (p : Place) (n : Names) (es : List Expr) :
    usesAll p n es = es.flatMap (uses p n) := by
  induction es with
  | nil => rfl
  | cons e rest ih => rw [usesAll, ih, List.flatMap_cons]

@[simp] theorem events_visited (around : List Layer) (p : Place) (n : Names) (es : List Expr) :
    (visited around p n es).flatMap Visit.events = useEvents p n es := by
  simp [visited, held, List.flatMap_map, Visit.events, useEvents, usesAll_eq_flatMap,
    List.map_flatMap]

@[simp] theorem events_visitedHints (around : List Layer) (p : Place) (n : Names) (es : List Expr) :
    (visitedHints around p n es).flatMap Visit.events = [] := by
  simp [visitedHints, heldHints, List.flatMap_map, Visit.events]

mutual

/-- **A walk over a statement** tells what it is told at one visit after the other, and knows the
names behind it. -/
theorem walk_eq_visits (around : List Layer) (p : Place) (n : Names) (s : Stmt) :
    walk p n s = ((visits around p n s).flatMap Visit.events, known p n s) := by
  cases s with
  | function line name parameters decorators body =>
    have hbody := fun inside =>
      walkAll_eq_visits (.function name parameters decorators :: around) inside n.push body
    rw [walk, visits, known]
    cases hp : p.inFunction with
    | true => simp [hp, Place.intoFunction, Visit.events, hbody]
    | false => simp [hp, Place.intoFunction, Visit.events, hbody]
  | classDef line name bases keywords decorators body =>
    have hbody := fun inside => walkAll_eq_visits (.classDef name :: around) inside n body
    rw [walk, visits, known]
    cases hp : p.inFunction with
    | true => simp [hp, Place.intoClass, Visit.events, hbody]
    | false => simp [hp, Place.intoClass, Visit.events, hbody]
  | block form clauses => exact walkClauses_eq_visits around p n clauses
  | importModules names => rfl
  | importFrom level module names => rfl
  | assign targets value => simp [walk, visits, known]
  | augment target value => simp [walk, visits, known]
  | declare target hint value => simp [walk, visits, known]
  | evaluate value => simp [walk, visits, known]
  | simple parts => simp [walk, visits, known]

theorem walkAll_eq_visits (around : List Layer) (p : Place) (n : Names) (body : List Stmt) :
    walkAll p n body = ((visitsAll around p n body).flatMap Visit.events, knownAll p n body) := by
  cases body with
  | nil => rfl
  | cons s rest =>
    simp [walkAll, visitsAll, knownAll, walk_eq_visits around p n s,
      walkAll_eq_visits around p _ rest]

theorem walkClauses_eq_visits (around : List Layer) (p : Place) (n : Names)
    (clauses : List Clause) :
    walkClauses p n clauses =
      ((visitsClauses around p n clauses).flatMap Visit.events, knownClauses p n clauses) := by
  match clauses with
  | [] => rfl
  | .mk header body :: rest =>
    simp [walkClauses, visitsClauses, knownClauses, walkAll_eq_visits around p n body,
      walkClauses_eq_visits around p _ rest]

end

/-! ## The place fits the layers -/

/-- The place of a walk is that of the layers around it. -/
structure Fits (module : String) (around : List Layer) (p : Place) : Prop where
  inFunction : p.inFunction = around.any Layer.isFunction
  caller : p.caller = owner module around
  scope : p.inFunction = false → p.scope = scopeIn module around
  inClass : p.inFunction = false → p.inClass = isInClass around

namespace Fits

variable {module : String} {around : List Layer} {p : Place}

theorem top (module : String) (isPackage : Bool) (defined : List String) :
    Fits module [] (Place.top module isPackage defined) where
  inFunction := rfl
  caller := rfl
  scope _ := by simp [Place.top, Place.scope, scopeIn, Dotted.join]
  inClass _ := rfl

theorem arityOf_eq (h : Fits module around p) (hp : p.inFunction = false) (parameters : Parameters)
    (decorators : List Expr) :
    arityOf p parameters decorators = arityIn around parameters decorators := by
  simp only [arityOf, arityIn, h.inClass hp, Bool.and_eq_true, Bool.not_eq_true']
  by_cases hpositive : 0 < parameters.positional.length
  · simp [hpositive]
  · -- without parameters there is no receiver to leave out
    obtain hzero : parameters.positional.length = 0 := by omega
    simp [hzero]

theorem functionSymbol_eq (h : Fits module around p) (hp : p.inFunction = false) (name : String)
    (parameters : Parameters) (decorators : List Expr) :
    functionSymbol p name parameters decorators =
      functionIn module around name parameters decorators := by
  rw [functionSymbol, functionIn, h.scope hp, h.arityOf_eq hp]

theorem below_scope (h : Fits module around p) (hp : p.inFunction = false) (name : String) :
    Dotted.below p.scope name = scopeIn module (.classDef name :: around) := by
  have hjoin : Dotted.join [name] = name := by simp [Dotted.join]
  have happend := Dotted.join_append (List.cons_ne_nil module (around.map Layer.name).reverse)
    (List.cons_ne_nil name [])
  rw [hjoin] at happend
  rw [h.scope hp, scopeIn, scopeIn, List.map_cons, List.reverse_cons, ← List.cons_append]
  exact happend.symm

/-- Inside a function the layers that are entered make no difference. -/
theorem inner (h : Fits module around p) (hp : p.inFunction = true) (l : Layer) :
    Fits module (l :: around) p := by
  have hany : around.any Layer.isFunction = true := h.inFunction.symm.trans hp
  refine ⟨?_, ?_, fun hout => ?_, fun hout => ?_⟩
  · rw [hp, List.any_cons, hany, Bool.or_true]
  · rw [h.caller, owner, if_pos hany]
  · rw [hp] at hout
    cases hout
  · rw [hp] at hout
    cases hout

theorem intoFunction (h : Fits module around p) (name : String) (parameters : Parameters)
    (decorators : List Expr) :
    Fits module (.function name parameters decorators :: around)
      (p.intoFunction name parameters decorators) := by
  unfold Place.intoFunction
  split
  · rename_i hp
    exact h.inner hp _
  · rename_i hp
    rw [Bool.not_eq_true] at hp
    have hany : ¬ around.any Layer.isFunction = true := by simp [← h.inFunction, hp]
    refine ⟨rfl, ?_, nofun, nofun⟩
    rw [owner, if_neg hany]
    exact h.functionSymbol_eq hp name parameters decorators

theorem intoClass (h : Fits module around p) (n : Names) (name : String) (bases : List Expr)
    (body : List Stmt) :
    Fits module (.classDef name :: around) (p.intoClass n name bases body) := by
  unfold Place.intoClass
  split
  · rename_i hp
    exact h.inner hp _
  · rename_i hp
    rw [Bool.not_eq_true] at hp
    have hany : around.any Layer.isFunction = false := h.inFunction.symm.trans hp
    have hscope : Dotted.below p.scope name = scopeIn module (.classDef name :: around) :=
      h.below_scope hp name
    refine ⟨?_, ?_, fun _ => hscope, fun _ => ?_⟩
    · rw [List.any_cons, hany]
      exact hp
    · rw [owner, hany]
      exact congrArg Symbol.classOf hscope
    · simp [Place.insideClass, Place.inClass, isInClass, hp]

end Fits

/-! ## What is kept on the way in -/

/-- A property of places and the layers around them that is kept on the way into functions and
classes. -/
structure KeptInside (R : List Layer → Place → Prop) : Prop where
  intoFunction : ∀ {around p}, R around p → ∀ name parameters decorators,
    R (.function name parameters decorators :: around) (p.intoFunction name parameters decorators)
  intoClass : ∀ {around p}, R around p → ∀ n name bases body,
    R (.classDef name :: around) (p.intoClass n name bases body)

namespace KeptInside

theorem of_mem_visited {R : List Layer → Place → Prop} {around : List Layer} {p : Place}
    (h : R around p) (n : Names) (es : List Expr) :
    ∀ v ∈ visited around p n es, R v.around v.place := by
  intro v hv
  simp only [visited, held, List.map_map, List.mem_map] at hv
  obtain ⟨e, -, rfl⟩ := hv
  exact h

theorem of_mem_visitedHints {R : List Layer → Place → Prop} {around : List Layer} {p : Place}
    (h : R around p) (n : Names) (es : List Expr) :
    ∀ v ∈ visitedHints around p n es, R v.around v.place := by
  intro v hv
  simp only [visitedHints, heldHints, List.map_map, List.mem_map] at hv
  obtain ⟨e, -, rfl⟩ := hv
  exact h

mutual

/-- **What is kept on the way in holds wherever a walk comes.** -/
theorem of_mem_visits {R : List Layer → Place → Prop} (hR : KeptInside R) {around : List Layer}
    {p : Place} (h : R around p) (n : Names) (s : Stmt) :
    ∀ v ∈ visits around p n s, R v.around v.place := by
  cases s with
  | function line name parameters decorators body =>
    rw [visits]
    refine List.forall_mem_append.2
      ⟨List.forall_mem_append.2 ⟨of_mem_visited h n _, of_mem_visitedHints h n _⟩,
      List.forall_mem_cons.2 ⟨h, ?_⟩⟩
    exact hR.of_mem_visitsAll (hR.intoFunction h name parameters decorators) n.push body
  | classDef line name bases keywords decorators body =>
    have hinside := hR.intoClass h n name bases body
    rw [visits]
    refine List.forall_mem_append.2 ⟨of_mem_visited h n _, List.forall_mem_cons.2 ⟨h, ?_⟩⟩
    exact List.forall_mem_append.2 ⟨of_mem_visited hinside n _, hR.of_mem_visitsAll hinside n body⟩
  | block form clauses => exact hR.of_mem_visitsClauses h n clauses
  | declare target hint value =>
    exact List.forall_mem_append.2 ⟨of_mem_visitedHints h n _, of_mem_visited h n _⟩
  | importModules names => exact List.forall_mem_nil _
  | importFrom level module names => exact List.forall_mem_nil _
  | assign targets value => exact of_mem_visited h _ _
  | augment target value => exact of_mem_visited h n _
  | evaluate value => exact of_mem_visited h n _
  | simple parts => exact of_mem_visited h n _

theorem of_mem_visitsAll {R : List Layer → Place → Prop} (hR : KeptInside R) {around : List Layer}
    {p : Place} (h : R around p) (n : Names) (body : List Stmt) :
    ∀ v ∈ visitsAll around p n body, R v.around v.place := by
  cases body with
  | nil => exact List.forall_mem_nil _
  | cons s rest =>
    exact List.forall_mem_append.2 ⟨hR.of_mem_visits h n s, hR.of_mem_visitsAll h _ rest⟩

theorem of_mem_visitsClauses {R : List Layer → Place → Prop} (hR : KeptInside R)
    {around : List Layer} {p : Place} (h : R around p) (n : Names) (clauses : List Clause) :
    ∀ v ∈ visitsClauses around p n clauses, R v.around v.place := by
  match clauses with
  | [] => exact List.forall_mem_nil _
  | .mk header body :: rest =>
    exact List.forall_mem_append.2
      ⟨List.forall_mem_append.2 ⟨of_mem_visited h n _, hR.of_mem_visitsAll h n body⟩,
      hR.of_mem_visitsClauses h _ rest⟩

end

end KeptInside

section Visits

variable {module : String}

theorem keptInside_fits : KeptInside (Fits module) := ⟨Fits.intoFunction, Fits.intoClass⟩

/-- **Wherever a walk comes, its place is that of the layers around.** -/
theorem fits_of_mem_visitsAll {around : List Layer} {p : Place} (h : Fits module around p)
    (n : Names) (body : List Stmt) :
    ∀ v ∈ visitsAll around p n body, Fits module v.around v.place :=
  keptInside_fits.of_mem_visitsAll h n body

theorem fits_of_mem_moduleVisits {isPackage : Bool} {body : List Stmt} :
    ∀ v ∈ moduleVisits module isPackage body, Fits module v.around v.place :=
  fits_of_mem_visitsAll (.top module isPackage _) _ body

end Visits

/-! ## The facts of a module -/

/-- **The facts of a module** are those of its own code and of what is told at one visit after the
other. -/
theorem told_factsOf {module unit : String} {isPackage : Bool} {body : List Stmt}
    {facts : List Fact} (h : factsOf module unit isPackage body = .ok facts) :
    ∃ reexports imports names, List.Forall₂ (fun e f => eventFact unit names e = .ok f)
      (bodyEvent module body reexports imports ::
        (moduleVisits module isPackage body).flatMap Visit.events) facts := by
  unfold factsOf at h
  dsimp only at h
  rw [walkAll_eq_visits []] at h
  exact ⟨_, _, _, mapM_eq_ok_iff.1 h⟩

/-- An event tells a fact of its kind; a definition gets its file, its documentation and whether it
is exported. -/
theorem eventFact_cases {unit : String} {names : List String} {e : Event} {f : Fact}
    (h : eventFact unit names e = .ok f) :
    (∃ s info doc top value, e = .define s info doc top ∧ docValue doc = .ok value ∧
      f = .definition s
        { info with file := unit, doc := value, «export» := top.any names.contains }) ∨
    ∃ caller callee line, e = .use caller callee line ∧ f = .call caller callee ⟨unit, line⟩ := by
  cases e with
  | define s info doc top =>
    cases doc with
    | blank => cases h
    | absent | line _ =>
      cases h
      exact .inl ⟨s, info, _, top, _, rfl, rfl, rfl⟩
  | use caller callee line =>
    cases h
    exact .inr ⟨caller, callee, line, rfl, rfl⟩

end Deadwood.Collect
