import Deadwood.Proofs.Definitions

/-!
# The body of a function

What stands in the body of a function changes nothing in the facts of its module but the function's
own calls and its documentation: what is imported and assigned there is forgotten at its end, and
what is defined there defines no symbol.

* `Spot` is a module with a gap for a function that only classes and blocks stand around.
* `outline_fill`, `memberNames_fill`, `summary_fill`, `knownAll_fill`: what is known of a module
  before the walk, of the classes around the gap, and behind it does not depend on the body in the
  gap.
* `Framed`: a walk is the same around the body, whatever that is (`framed_visitsAll`, by induction
  over the spot).
* `place_of_mem_visitsAll`: inside a function there is one place, so that all that is told there are
  calls of the function (`mapM_bodyVisits`, `caller_of_mem_bodyCalls`).
* `body_tells_own_calls`: the facts with two bodies.
-/

namespace Deadwood.Source

/-! ## Spots -/

/-- A function without its body. -/
structure FunctionHead where
  line : Nat
  name : String
  parameters : Parameters
  decorators : List Expr

namespace FunctionHead

/-- The function with a body. -/
def part (f : FunctionHead) (body : List Stmt) : Part :=
  .function f.line f.name f.parameters f.decorators body

/-- The layer that the function makes. -/
def layer (f : FunctionHead) : Layer := .function f.name f.parameters f.decorators

end FunctionHead

/-- Statements with a gap for a function that only classes and blocks stand around. -/
inductive Spot where
  | here (before after : List Stmt)
  | inClass (before : List Stmt) (line : Nat) (name : String)
    (bases keywords decorators : List Expr) (inner : Spot)
      (after : List Stmt)
  | inBlock (before : List Stmt) (form : BlockForm) (front : List Clause) (header : List Expr)
    (inner : Spot)
      (back : List Clause) (after : List Stmt)

namespace Spot

/-- The statements with the gap filled by a function with the given body. -/
def fill (f : FunctionHead) (body : List Stmt) : Spot → List Stmt
  | .here before after => before ++ .function f.line f.name f.parameters f.decorators body :: after
  | .inClass before line name bases keywords decorators inner after =>
    before ++ .classDef line name bases keywords decorators (inner.fill f body) :: after
  | .inBlock before form front header inner back after =>
    before ++ .block form (front ++ .mk header (inner.fill f body) :: back) :: after

/-- The layers around the gap, if `outer` are those around the statements. -/
def around (outer : List Layer) : Spot → List Layer
  | .here .. => outer
  | .inClass _ _ name _ _ _ inner _ => inner.around (.classDef name :: outer)
  | .inBlock _ _ _ _ inner _ _ => inner.around outer

end Spot

end Deadwood.Source

namespace Deadwood.Collect

open Source

variable {f : FunctionHead} {body body' : List Stmt}

/-! ## What does not depend on the body -/

theorem memberNames_fill (spot : Spot) :
    memberNames (spot.fill f body) = memberNames (spot.fill f body') := by
  cases spot <;> simp only [memberNames, Spot.fill, List.filterMap_append, List.filterMap_cons] <;>
    rfl

theorem documentation?_cons (s : Stmt) (rest rest' : List Stmt) :
    documentation? (s :: rest) = documentation? (s :: rest') := by
  cases s with
  | evaluate value => cases value <;> rfl
  | _ => rfl

theorem documentation?_append (before : List Stmt) {rest rest' : List Stmt}
    (h : documentation? rest = documentation? rest') :
    documentation? (before ++ rest) = documentation? (before ++ rest') := by
  cases before with
  | nil => exact h
  | cons s before => exact documentation?_cons s _ _

theorem summary_fill (spot : Spot) : summary (spot.fill f body) = summary (spot.fill f body') := by
  have hdocumentation : documentation? (spot.fill f body) = documentation? (spot.fill f body') := by
    cases spot <;> exact documentation?_append _ rfl
  rw [summary, summary, hdocumentation]

/-- What an outline takes from a statement. -/
def outlined (s : Stmt) : Option String × List String × (Place → List (String × String)) × Bool :=
  (definedName? s, declaredNames s, fun p => p.imports s, isRelativeImport s)

theorem topStatements_append (xs ys : List Stmt) :
    topStatements (xs ++ ys) = topStatements xs ++ topStatements ys := by
  induction xs with
  | nil => rfl
  | cons s xs ih => rw [List.cons_append, topStatements, topStatements, ih, List.append_assoc]

theorem topClauses_append (cs ds : List Clause) :
    topClauses (cs ++ ds) = topClauses cs ++ topClauses ds := by
  induction cs with
  | nil => rfl
  | cons c cs ih =>
    obtain ⟨header, body⟩ := c
    rw [List.cons_append, topClauses, topClauses, ih, List.append_assoc]

theorem outlined_fill (spot : Spot) :
    (topStatements (spot.fill f body)).map outlined =
      (topStatements (spot.fill f body')).map outlined := by
  induction spot with
  | here before after =>
    simp only [Spot.fill, topStatements_append, topStatements, List.map_append]
    rfl
  | inClass before line name bases keywords decorators inner after _ =>
    simp only [Spot.fill, topStatements_append, topStatements, List.map_append]
    rfl
  | inBlock before form front header inner back after ih =>
    simp only [Spot.fill, topStatements_append, topStatements, topStatement, List.map_append,
      List.map_cons]
    by_cases hform : form = .select
    · rw [if_pos hform, if_pos hform]
      rfl
    · rw [if_neg hform, if_neg hform, topClauses_append, topClauses_append, topClauses, topClauses]
      simp only [List.map_append, ih]
      rfl

/-- The outline of a module is made of what it takes from one statement after the other. -/
theorem outline_eq (module : String) (isPackage : Bool) (body : List Stmt) :
    outline module isPackage body =
    let taken := (topStatements body).map outlined
    let p := Place.top module isPackage []
    { imports := taken.foldl (fun n t => (t.2.2.1 p).foldl (fun n b => n.bind t.2.2.2 b.1 b.2) n) {}
      defined := taken.filterMap (·.1)
      declared := taken.flatMap (·.2.1) } := by
  simp only [outline, List.foldl_map, List.filterMap_map, List.flatMap_map]
  rfl

theorem outline_fill (module : String) (isPackage : Bool) (spot : Spot) :
    outline module isPackage (spot.fill f body) = outline module isPackage (spot.fill f body') := by
  rw [outline_eq, outline_eq, outlined_fill spot]

/-! ## What a walk comes to -/

section Append

variable (around : List Layer) (p : Place) (n : Names)

theorem knownAll_append (xs ys : List Stmt) :
    knownAll p n (xs ++ ys) = knownAll p (knownAll p n xs) ys := by
  induction xs generalizing n with
  | nil => rfl
  | cons s xs ih => exact ih _

theorem knownClauses_append (cs ds : List Clause) :
    knownClauses p n (cs ++ ds) = knownClauses p (knownClauses p n cs) ds := by
  induction cs generalizing n with
  | nil => rfl
  | cons c cs ih =>
    obtain ⟨header, body⟩ := c
    exact ih _

theorem visitsAll_append (xs ys : List Stmt) :
    visitsAll around p n (xs ++ ys) =
      visitsAll around p n xs ++ visitsAll around p (knownAll p n xs) ys := by
  induction xs generalizing n with
  | nil => rfl
  | cons s xs ih => rw [List.cons_append, visitsAll, visitsAll, ih, List.append_assoc, knownAll]

theorem visitsClauses_append (cs ds : List Clause) : visitsClauses around p n (cs ++ ds) =
    visitsClauses around p n cs ++ visitsClauses around p (knownClauses p n cs) ds := by
  induction cs generalizing n with
  | nil => rfl
  | cons c cs ih =>
    obtain ⟨header, body⟩ := c
    simp only [List.cons_append, visitsClauses, knownClauses, ih, List.append_assoc]

end Append

theorem intoClass_fill (p : Place) (n : Names) (name : String) (bases : List Expr) (spot : Spot) :
    p.intoClass n name bases (spot.fill f body) = p.intoClass n name bases (spot.fill f body') := by
  rw [Place.intoClass, Place.intoClass, enclosure, enclosure, memberNames_fill spot]

/-- A function's body binds no name behind it. -/
theorem knownAll_fill (spot : Spot) (p : Place) (n : Names) :
    knownAll p n (spot.fill f body) = knownAll p n (spot.fill f body') := by
  induction spot generalizing p n with
  | here before after => simp only [Spot.fill, knownAll_append, knownAll, known]
  | inClass before line name bases keywords decorators inner after ih =>
    simp only [Spot.fill, knownAll_append, knownAll, known]
    rw [intoClass_fill p _ name bases inner, ih]
  | inBlock before form front header inner back after ih =>
    simp only [Spot.fill, knownAll_append, knownAll, known, knownClauses_append, knownClauses]
    rw [ih]

/-- A class is told the same whatever the body of a function in it is. -/
theorem events_class_fill (around : List Layer) (p : Place) (n : Names) (line : Nat) (name : String)
    (bases keywords decorators : List Expr) (spot : Spot) :
    Visit.events
      ⟨⟨around, .classDef line name bases keywords decorators (spot.fill f body)⟩, p, n⟩ =
      Visit.events
        ⟨⟨around, .classDef line name bases keywords decorators (spot.fill f body')⟩, p, n⟩ := by
  have henclosure : enclosure p n name bases (spot.fill f body) =
      enclosure p n name bases (spot.fill f body') :=
    congrArg (Enclosure.mk _ _) (memberNames_fill spot)
  unfold Visit.events
  dsimp only
  rw [henclosure, classEvents, classEvents, summary_fill spot]

/-- What a walk comes to in the body of a function. -/
def bodyVisits (f : FunctionHead) (around : List Layer) (place : Place) (names : Names)
    (body : List Stmt) :
    List Visit :=
  visitsAll (f.layer :: around) (place.intoFunction f.name f.parameters f.decorators)
    names.push body

/-- The calls that are told while a walk is in the body of a function. -/
def bodyCalls (module unit : String) (f : FunctionHead) (around : List Layer) (place : Place)
    (names : Names) (body : List Stmt) : List Fact :=
  (bodyVisits f around place names body).flatMap (Visit.used module unit)

/-- Whatever the body of the function is, a walk comes to it at the same place and with the same
names, is told the same before it, and comes to the same behind it. -/
def Framed (module : String) (f : FunctionHead) (around : List Layer)
    (walked : List Stmt → List Visit) : Prop :=
  ∃ front back place names, place.inFunction = false ∧ Fits module around place ∧
    ∀ body, ∃ before, before.flatMap Visit.events = front ∧ walked body =
      before ++ ⟨⟨around, f.part body⟩, place, names⟩ ::
        (bodyVisits f around place names body ++ back)

namespace Framed

variable {module : String} {around : List Layer} {walked : List Stmt → List Visit}

/-- The function alone. -/
theorem function {p : Place} (hp : p.inFunction = false) (h : Fits module around p) (n : Names)
    (f : FunctionHead) :
    Framed module f around fun body =>
      ⟨⟨around, f.part body⟩, p, n⟩ :: bodyVisits f around p n body :=
  ⟨[], [], p, n, hp, h, fun body => ⟨[], rfl, by simp⟩⟩

/-- More around it that does not depend on the body. -/
theorem surround (h : Framed module f around walked) (before : List Stmt → List Visit)
    (hbefore : ∀ body body', (before body).flatMap Visit.events =
      (before body').flatMap Visit.events)
    (behind : List Visit) : Framed module f around fun body =>
      before body ++ walked body ++ behind := by
  obtain ⟨front, back, place, names, hplace, hfits, hwalked⟩ := h
  refine ⟨(before []).flatMap Visit.events ++ front, back ++ behind, place, names, hplace, hfits,
    fun body => ?_⟩
  obtain ⟨first, hfirst, heq⟩ := hwalked body
  refine ⟨before body ++ first, ?_, by simp [heq]⟩
  rw [List.flatMap_append, hfirst, hbefore body []]

theorem congr (h : Framed module f around walked) {walked' : List Stmt → List Visit}
    (heq : ∀ body, walked' body = walked body) : Framed module f around walked' :=
  funext heq ▸ h

end Framed

/-- **A walk over statements with a function in a gap** is the same around its body whatever that
is. -/
theorem framed_visitsAll {module : String} (spot : Spot) (f : FunctionHead) {around : List Layer}
    {p : Place} (n : Names) (hp : p.inFunction = false) (h : Fits module around p) :
    Framed module f (spot.around around) fun body => visitsAll around p n (spot.fill f body) := by
  induction spot generalizing around p n with
  | here before after =>
    let m := knownAll p n before
    have hframed := (Framed.function hp h m f).surround
      (fun _ => visitsAll around p n before ++
        (visited around p m
          (f.decorators ++ f.parameters.defaults ++ f.parameters.keywordDefaults) ++
          visitedHints around p m f.parameters.hints))
      (fun _ _ => rfl) (visitsAll around p m after)
    refine hframed.congr fun body => ?_
    simp [m, Spot.fill, visitsAll_append, visitsAll, visits, known, bodyVisits, FunctionHead.part,
      FunctionHead.layer]
  | inClass before line name bases keywords decorators inner after ih =>
    let m := knownAll p n before
    let inside := p.intoClass m name bases (inner.fill f [])
    have hinside : inside.inFunction = false := by
      simp [inside, Place.intoClass, hp, Place.insideClass]
    have hframed := (ih m hinside (h.intoClass m name bases (inner.fill f []))).surround
      (fun body => visitsAll around p n before ++ (visited around p m decorators ++
        ⟨⟨around, .classDef line name bases keywords decorators (inner.fill f body)⟩, p, m⟩ ::
        visited (.classDef name :: around) inside m (bases ++ keywords)))
      (fun body body' => by
        simp only [List.flatMap_append, List.flatMap_cons]
        rw [events_class_fill around])
      (visitsAll around p
        (known p m (.classDef line name bases keywords decorators (inner.fill f []))) after)
    refine hframed.congr fun body => ?_
    have hplace : p.intoClass m name bases (inner.fill f body) = inside :=
      intoClass_fill p m name bases inner
    have hknown : known p m (.classDef line name bases keywords decorators (inner.fill f body)) =
        known p m (.classDef line name bases keywords decorators (inner.fill f [])) := by
      rw [known, known, hplace, knownAll_fill inner]
    rw [Spot.fill, visitsAll_append, visitsAll, hknown, visits, hplace]
    simp [m]
  | inBlock before form front header inner back after ih =>
    let m := knownAll p n before
    let k := knownClauses p m front
    have hframed := (ih k hp h).surround
      (fun _ => visitsAll around p n before ++
        (visitsClauses around p m front ++ visited around p k header))
      (fun _ _ => rfl)
      (visitsClauses around p (knownAll p k (inner.fill f [])) back ++
        visitsAll around p (known p m (.block form (front ++ .mk header (inner.fill f []) :: back)))
          after)
    refine hframed.congr fun body => ?_
    have hknown : knownAll p k (inner.fill f body) = knownAll p k (inner.fill f []) :=
      knownAll_fill inner p k
    have hbehind : known p m (.block form (front ++ .mk header (inner.fill f body) :: back)) =
        known p m (.block form (front ++ .mk header (inner.fill f []) :: back)) := by
      rw [known, known, knownClauses_append, knownClauses_append, knownClauses,
        knownClauses, hknown]
    rw [Spot.fill, visitsAll_append, visitsAll, hbehind, visits, visitsClauses_append,
      visitsClauses, hknown]
    simp [m, k]

theorem framed_moduleVisits (module : String) (isPackage : Bool) (spot : Spot) (f : FunctionHead) :
    Framed module f (spot.around []) fun body =>
      moduleVisits module isPackage (spot.fill f body) := by
  let o := outline module isPackage (spot.fill f [])
  refine (framed_visitsAll spot f o.imports rfl (.top module isPackage o.defined)).congr fun body =>
    ?_
  have houtline : outline module isPackage (spot.fill f body) = o :=
    outline_fill module isPackage spot
  rw [moduleVisits, houtline]

/-! ## Inside a function -/

/-- **Inside a function there is one place**, whatever functions and classes stand there. -/
theorem place_of_mem_visitsAll {p : Place} (hp : p.inFunction = true) (around : List Layer)
    (n : Names) (body : List Stmt) : ∀ v ∈ visitsAll around p n body, v.place = p := by
  have hkept : KeptInside fun _ q => q = p := by
    refine ⟨?_, ?_⟩
    · rintro _ q rfl name parameters decorators
      exact if_pos hp
    · rintro _ q rfl n name bases body
      exact if_pos hp
  exact hkept.of_mem_visitsAll rfl n body

theorem mapM_useEvents (p : Place) (n : Names) (es : List Expr) (unit : String)
    (names : List String) :
    (useEvents p n es).mapM (eventFact unit names) =
      .ok ((usesAll p n es).map fun u => .call p.caller u.target ⟨unit, u.line⟩) := by
  rw [useEvents, mapM_eq_ok_iff, List.forall₂_map_left_iff, List.forall₂_map_right_iff]
  exact List.forall₂_same.2 fun u _ => rfl

/-- The expression that something in a module is. -/
def expressionOf : Part → List Expr
  | .expression e => [e]
  | _ => []

/-- Where a walk comes to something inside a function, it is told what that uses and nothing
else. -/
theorem events_of_inFunction {v : Visit} (hv : v.place.inFunction = true) :
    v.events = useEvents v.place v.names (expressionOf v.part) := by
  obtain ⟨⟨around, part⟩, place, names⟩ := v
  cases part with
  | expression e => rfl
  | hint e => rfl
  | function line name parameters decorators body => exact if_pos hv
  | classDef line name bases keywords decorators body => exact if_pos hv

theorem used_eq (module unit : String) (v : Visit) : v.used module unit =
    (usesAll v.place v.names (expressionOf v.part)).map fun u =>
      .call (owner module v.around) u.target ⟨unit, u.line⟩ := by
  obtain ⟨⟨around, part⟩, place, names⟩ := v
  cases part with
  | expression e => rw [expressionOf, usesAll, usesAll, List.append_nil, Visit.used]
  | _ => rfl

theorem topNames_useEvents (p : Place) (n : Names) (es : List Expr) :
    topNames (useEvents p n es) = [] := by
  simp [topNames, useEvents, List.filterMap_map]

section Body

variable {module : String} {around : List Layer} {place : Place} (f : FunctionHead) (names : Names)
    (body : List Stmt)

theorem inFunction_intoFunction (p : Place) (name : String) (parameters : Parameters)
    (decorators : List Expr) :
    (p.intoFunction name parameters decorators).inFunction = true := by
  unfold Place.intoFunction
  split
  · assumption
  · rfl

theorem inFunction_of_mem_bodyVisits {v : Visit} (hv : v ∈ bodyVisits f around place names body) :
    v.place.inFunction = true := by
  have hinside := inFunction_intoFunction place f.name f.parameters f.decorators
  rw [place_of_mem_visitsAll hinside _ _ body v hv, hinside]

theorem topNames_bodyVisits :
    topNames ((bodyVisits f around place names body).flatMap Visit.events) = [] := by
  rw [topNames, List.filterMap_flatMap, List.flatMap_eq_nil_iff]
  intro v hv
  rw [events_of_inFunction (inFunction_of_mem_bodyVisits f names body hv)]
  exact topNames_useEvents ..

/-- What is told while a walk is in the body of a function are calls. -/
theorem mapM_bodyVisits (h : Fits module around place) (unit : String) (offered : List String) :
    ((bodyVisits f around place names body).flatMap Visit.events).mapM (eventFact unit offered) =
      .ok (bodyCalls module unit f around place names body) := by
  refine mapM_flatMap_eq_ok fun v hv => ?_
  have hfits := fits_of_mem_visitsAll (h.intoFunction f.name f.parameters f.decorators) _ body v hv
  rw [events_of_inFunction (inFunction_of_mem_bodyVisits f names body hv), mapM_useEvents, used_eq,
    hfits.caller]

/-- All calls that are told while a walk is in the body of a function are calls of that function. -/
theorem caller_of_mem_bodyCalls (hplace : place.inFunction = false) (h : Fits module around place)
    {unit : String} :
    ∀ c ∈ bodyCalls module unit f around place names body, ∃ callee site,
      c = .call (functionIn module around f.name f.parameters f.decorators) callee site := by
  intro c hc
  obtain ⟨v, hv, hc⟩ := List.mem_flatMap.1 hc
  have hfits := fits_of_mem_visitsAll (h.intoFunction f.name f.parameters f.decorators) _ body v hv
  have hinside := inFunction_intoFunction place f.name f.parameters f.decorators
  have hcaller : owner module v.around =
      functionIn module around f.name f.parameters f.decorators := by
    rw [← hfits.caller, place_of_mem_visitsAll hinside _ _ body v hv, ← h.functionSymbol_eq hplace,
      Place.intoFunction,
      hplace]
    rfl
  rw [used_eq, hcaller] at hc
  obtain ⟨u, -, rfl⟩ := List.mem_map.1 hc
  exact ⟨u.target, _, rfl⟩

end Body

/-! ## The facts around a body -/

/-- What a walk over a module is told. -/
def moduleEvents (module : String) (isPackage : Bool) (body : List Stmt) : List Event :=
  (moduleVisits module isPackage body).flatMap Visit.events

theorem factsOf_eq (module unit : String) (isPackage : Bool) (body : List Stmt) :
    factsOf module unit isPackage body =
    let o := outline module isPackage body
    let p := Place.top module isPackage o.defined
    let events := moduleEvents module isPackage body
    let n := knownAll p o.imports body
    let names := offered p o.declared n.relative events
    (bodyEvent module body (reexported names (topNames events) n.module) n.module :: events).mapM
      (eventFact unit names) := by
  rw [factsOf, walkAll_eq_visits []]
  rfl

theorem topNames_append (events events' : List Event) :
    topNames (events ++ events') = topNames events ++ topNames events' :=
  List.filterMap_append

theorem offered_congr (p : Place) (declared relative : List String) {events events' : List Event}
    (h : topNames events = topNames events') :
    offered p declared relative events = offered p declared relative events' := by
  rw [offered, offered, h]

/-- The definition of a function and what is told in its body and behind it. -/
def definedThen (f : FunctionHead) (around : List Layer) (place : Place) (names : Names)
    (body : List Stmt) (back : List Event) : List Event :=
  functionEvent place f.line f.name f.parameters f.decorators body ::
    ((bodyVisits f around place names body).flatMap Visit.events ++ back)

/-- Nothing in a function's body defines a name of the module. -/
theorem topNames_definedThen (f : FunctionHead) (around : List Layer) (place : Place)
    (names : Names) (body body' : List Stmt) (back : List Event) :
    topNames (definedThen f around place names body back) =
      topNames (definedThen f around place names body' back) := by
  have hsplit : ∀ body, topNames (definedThen f around place names body back) =
      topNames [functionEvent place f.line f.name f.parameters f.decorators body] ++
        topNames back := by
    intro body
    rw [definedThen, ← List.singleton_append, topNames_append, topNames_append, topNames_bodyVisits,
      List.nil_append]
  rw [hsplit body, hsplit body']
  rfl

/-- **The facts of a module with a function in a gap**: what is told before and behind the body, the
names that are offered, and the place and the names in the body are the same whatever the body
is. -/
theorem factsOf_fill (module unit : String) (isPackage : Bool) (spot : Spot) (f : FunctionHead) :
    ∃ front back offers place names, place.inFunction = false ∧
      Fits module (spot.around []) place ∧ ∀ body,
      ⟨⟨spot.around [], f.part body⟩, place, names⟩ ∈
        moduleVisits module isPackage (spot.fill f body) ∧
      factsOf module unit isPackage (spot.fill f body) =
        (front ++ definedThen f (spot.around []) place names body back).mapM
          (eventFact unit offers) := by
  obtain ⟨front, back, place, names, hplace, hfits, hwalked⟩ :=
    framed_moduleVisits module isPackage spot f
  let back' := back.flatMap Visit.events
  have hevents : ∀ body, moduleEvents module isPackage (spot.fill f body) =
      front ++ definedThen f (spot.around []) place names body back' := by
    intro body
    obtain ⟨before, hbefore, hvisits⟩ := hwalked body
    beta_reduce at hvisits
    simp [moduleEvents, definedThen, back', hvisits, hbefore, Visit.events,
      FunctionHead.part, hplace]
  have htop : ∀ body, topNames (moduleEvents module isPackage (spot.fill f body)) =
      topNames (moduleEvents module isPackage (spot.fill f [])) := by
    intro body
    rw [hevents, hevents, topNames_append, topNames_append,
      topNames_definedThen f _ place names body []]
  -- what the module offers and knows in the end, taken from the module with an empty body
  let o := outline module isPackage (spot.fill f [])
  let p := Place.top module isPackage o.defined
  let n := knownAll p o.imports (spot.fill f [])
  let top := topNames (moduleEvents module isPackage (spot.fill f []))
  let offers := offered p o.declared n.relative (moduleEvents module isPackage (spot.fill f []))
  refine ⟨bodyEvent module (spot.fill f []) (reexported offers top n.module) n.module :: front,
    back', offers, place,
    names, hplace, hfits, fun body => ⟨?_, ?_⟩⟩
  · obtain ⟨before, -, hvisits⟩ := hwalked body
    beta_reduce at hvisits
    rw [hvisits]
    simp
  · have houtline : outline module isPackage (spot.fill f body) = o :=
      outline_fill module isPackage spot
    have hknown : knownAll p o.imports (spot.fill f body) = n := knownAll_fill spot p o.imports
    have hoffers : offered p o.declared n.relative
        (moduleEvents module isPackage (spot.fill f body)) = offers :=
      offered_congr p _ _ (htop body)
    have hsummary : summary (spot.fill f body) = summary (spot.fill f []) := summary_fill spot
    rw [factsOf_eq]
    dsimp only
    rw [houtline, hknown, hoffers, htop body, hevents body, bodyEvent, hsummary]
    rfl

/-- Of what the definition of a function is told with, only its documentation depends on the
body. -/
theorem eventFact_functionEvent (unit : String) (offers : List String) (f : FunctionHead)
    (place : Place) :
    ∃ info : Meta, ∀ body d,
      eventFact unit offers (functionEvent place f.line f.name f.parameters f.decorators body) =
        .ok d →
      ∃ doc, docValue (summary body) = .ok doc ∧
        d = .definition (functionSymbol place f.name f.parameters f.decorators)
          { info with doc := doc } := by
  refine ⟨{
    visibility := visibilityOf f.name
    file := unit
    line := f.line
    «export» := (if place.atTop then some f.name else none).any offers.contains
    kind := if place.inClass then "method" else "function"
    decorators := decoratorNames f.decorators
    implements := if place.inClass then (place.classes.head?.map (·.bases)).getD [] else [] },
      fun body d hd => ?_⟩
  rcases eventFact_cases hd
    with ⟨s, info, doc, top, value, hevent, hvalue, rfl⟩ | ⟨_, _, _, hevent, -⟩
  · cases hevent
    exact ⟨value, hvalue, rfl⟩
  · cases hevent

/-- **A function's body tells its own calls.** Fill a gap of a module, with only classes and blocks
around it, with a function, once with one body and once with another, and let both modules have
facts. A walk comes to the function at the same place and with the same names. The two lists of
facts agree up to the definition of the function; there they agree but for its documentation, which
is that of the body. Then come the calls that are told in the body, all of them calls of the
function, and behind these the lists agree again. -/
theorem body_tells_own_calls {module unit : String} {isPackage : Bool} (spot : Spot)
    (f : FunctionHead) {body body' : List Stmt} {facts facts' : List Fact}
    (h : factsOf module unit isPackage (spot.fill f body) = .ok facts)
    (h' : factsOf module unit isPackage (spot.fill f body') = .ok facts') :
    let around := spot.around []
    let s := functionIn module around f.name f.parameters f.decorators
    ∃ (front back : List Fact) (info : Meta) (doc doc' : Value) (place : Place) (names : Names),
      ⟨⟨around, f.part body⟩, place, names⟩ ∈ moduleVisits module isPackage (spot.fill f body) ∧
      ⟨⟨around, f.part body'⟩, place, names⟩ ∈ moduleVisits module isPackage (spot.fill f body') ∧
      facts = front ++ .definition s { info with doc := doc } ::
        (bodyCalls module unit f around place names body ++ back) ∧
      facts' = front ++ .definition s { info with doc := doc' } ::
        (bodyCalls module unit f around place names body' ++ back) ∧
      docValue (summary body) = .ok doc ∧ docValue (summary body') = .ok doc' ∧
      ∀ b, ∀ c ∈ bodyCalls module unit f around place names b, ∃ callee site,
        c = .call s callee site := by
  intro around s
  obtain ⟨front, back, offers, place, names, hplace, hfits, hfacts⟩ :=
    factsOf_fill module unit isPackage spot f
  obtain ⟨info, hinfo⟩ := eventFact_functionEvent unit offers f place
  have hs : functionSymbol place f.name f.parameters f.decorators = s :=
    hfits.functionSymbol_eq hplace ..
  have hsplit : ∀ {b told}, factsOf module unit isPackage (spot.fill f b) = .ok told →
    ∃ front' back' doc,
      front.mapM (eventFact unit offers) = .ok front' ∧
        back.mapM (eventFact unit offers) = .ok back' ∧
      docValue (summary b) = .ok doc ∧ told = front' ++ .definition s { info with doc := doc } ::
        (bodyCalls module unit f around place names b ++ back') := by
    intro b told htold
    rw [(hfacts b).2, mapM_append_eq_ok_iff] at htold
    obtain ⟨front', rest, hfront, hrest, rfl⟩ := htold
    obtain ⟨d, rest', hd, hrest', rfl⟩ := mapM_cons_eq_ok_iff.1 hrest
    obtain ⟨calls, back', hcalls, hback, rfl⟩ := mapM_append_eq_ok_iff.1 hrest'
    obtain ⟨doc, hdoc, rfl⟩ := hinfo b d hd
    rw [mapM_bodyVisits f names b hfits] at hcalls
    cases hcalls
    rw [hs]
    exact ⟨front', back', doc, hfront, hback, hdoc, rfl⟩
  obtain ⟨front', back', doc, hfront, hback, hdoc, rfl⟩ := hsplit h
  obtain ⟨front'', back'', doc', hfront', hback', hdoc', rfl⟩ := hsplit h'
  cases hfront.symm.trans hfront'
  cases hback.symm.trans hback'
  exact ⟨front', back', info, doc, doc', place, names, (hfacts body).1, (hfacts body').1, rfl, rfl,
    hdoc, hdoc',
    fun b => caller_of_mem_bodyCalls f names b hplace hfits⟩

/-- A package that imports `start`, with a branch in which a class has a gap and a method behind
it. -/
def appSpot : Spot :=
  .inBlock [.importFrom 1 "core" [{ name := "start" }]] .branch [] [.constant]
    (.inClass [] 3 "App" [] [] []
      (.here [] [.function 11 "stop" { positional := ["self"] } []
        [.evaluate (.call 12 (.name 12 "start" .load) [] [])]])
      [])
    [] [.evaluate (.call 14 (.name 14 "start" .load) [] [])]

/-- The method that fills the gap. -/
def appRun : FunctionHead := ⟨4, "run", { positional := ["self"] }, []⟩

/-- A body that imports another `start`, assigns the list of public names, and has a function and a
class inside. -/
def appBody : List Stmt :=
  [.evaluate (.text "Runs."), .importFrom 1 "other" [{ name := "start" }],
    .assign [.name 7 "__all__" .store] (.list [.text "start"]),
    .function 8 "inner" {} [] [.evaluate (.call 8 (.name 8 "start" .load) [] [])],
    .classDef 9 "Local" [.name 9 "App" .load] [] [] [.simple []]]

theorem appBody_tells_own_calls :
    ∃ facts facts', factsOf "app" "app/__init__.py" true (appSpot.fill appRun appBody) = .ok facts ∧
      factsOf "app" "app/__init__.py" true (appSpot.fill appRun []) = .ok facts' ∧
      ∃ (front back : List Fact) (info : Meta) (calls : List Fact),
        facts = front ++ .definition ⟨"app.App", "run", 0⟩ { info with doc := .str "Runs." } ::
          (calls ++ back) ∧
        facts' = front ++ .definition ⟨"app.App", "run", 0⟩ { info with doc := .null } :: back ∧
        ∀ c ∈ calls, ∃ callee site, c = .call ⟨"app.App", "run", 0⟩ callee site := by
  have hok : (factsOf "app" "app/__init__.py" true (appSpot.fill appRun appBody)).toBool =
    true := by decide +kernel
  have hok' : (factsOf "app" "app/__init__.py" true (appSpot.fill appRun [])).toBool = true := by
    decide +kernel
  obtain ⟨facts, hfacts⟩ := exists_ok_of_toBool hok
  obtain ⟨facts', hfacts'⟩ := exists_ok_of_toBool hok'
  obtain ⟨front, back, info, doc, doc', place, names, -, -, hsplit, hsplit', hdoc, hdoc', hcalls⟩ :=
    body_tells_own_calls appSpot appRun hfacts hfacts'
  have hsymbol : functionIn "app" (appSpot.around [])
    appRun.name appRun.parameters appRun.decorators =
      ⟨"app.App", "run", 0⟩ := by decide +kernel
  have hsummary : docValue (summary appBody) = .ok (.str "Runs.") := by rfl
  rw [hsymbol] at hsplit hsplit' hcalls
  cases hsummary.symm.trans hdoc
  cases hdoc'
  exact ⟨facts, facts', hfacts, hfacts', front, back, info, _, hsplit, hsplit', hcalls appBody⟩

end Deadwood.Collect
