import Deadwood.Proofs.Definitions

/-!
# The calls of a module

No call that is written in a module is lost and none is counted twice: the calls among the facts,
apart from those of initializers and from mentions, are those that are written outside of
annotations, one after the other, as far as it is known what they refer to. The owner of a call
follows from the layers around it alone.

* `writtenCalls` lists the calls in a module with the layers around them; `callSites` adds what a
  walk knows there.
* `written_callSites`: a walk comes to every call once.
* `filter_used`: what an expression tells about calls is what the calls in it tell.
* `written_factsOf`, `calls_exact`: the calls among the facts of a module.
-/

namespace Deadwood

namespace Source

/-- The calls in something that stands in a module; what an annotation calls does not count. -/
def Part.calls : Part → List CallExpr
  | .expression e => e.calls
  | _ => []

/-- The calls in a module outside of annotations, each with the layers around it. -/
def writtenCalls (body : List Stmt) : List (List Layer × CallExpr) :=
  (Stmt.layoutAll [] body).flatMap fun h => h.part.calls.map fun c => (h.around, c)

end Source

namespace Collect

open Source

/-- A call with the layers around it, and the place and the names that a walk has when it comes
there. -/
structure CallSite where
  around : List Layer
  place : Place
  names : Names
  call : CallExpr

namespace CallSite

/-- What is called, as far as it is known. -/
def callee? (c : CallSite) : Option Symbol :=
  Collect.callee? c.place c.names c.call.function c.call.argc

/-- The fact that tells of a call: its owner calls what it refers to. -/
def fact? (module unit : String) (c : CallSite) : Option Fact :=
  c.callee?.map fun s => .call (owner module c.around) s ⟨unit, c.call.line⟩

end CallSite

/-- The calls in what a walk comes to. -/
def Visit.callSites (v : Visit) : List CallSite :=
  v.part.calls.map fun c => ⟨v.around, v.place, v.names, c⟩

/-- The calls that a walk over a module comes to. -/
def callSites (module : String) (isPackage : Bool) (body : List Stmt) : List CallSite :=
  (moduleVisits module isPackage body).flatMap Visit.callSites

/-- Whether a fact is a call that is written with arguments, however many. -/
def isWrittenCall (f : Fact) : Bool := f.callee?.any (·.arity ≤ -2)

/-- **A walk comes to every call once**, in order. -/
theorem written_callSites (module : String) (isPackage : Bool) (body : List Stmt) :
    (callSites module isPackage body).map (fun c => (c.around, c.call)) = writtenCalls body := by
  have hheld : (moduleVisits module isPackage body).map Visit.toHeld = Stmt.layoutAll [] body :=
    toHeld_visitsAll [] _ _ body
  rw [writtenCalls, ← hheld, List.flatMap_map, callSites, List.map_flatMap]
  simp only [Visit.callSites, List.map_map, Function.comp_def]

/-- **The calls that an expression tells** are those of the calls in it. -/
theorem filter_used (module unit : String) (v : Visit) :
    (v.used module unit).filter isWrittenCall =
      v.callSites.filterMap (CallSite.fact? module unit) := by
  obtain ⟨⟨around, part⟩, place, names⟩ := v
  cases part with
  | expression e =>
    have huses := filter_uses place names e
    calc ((uses place names e).map fun u => Fact.call (owner module around) u.target
      ⟨unit, u.line⟩).filter isWrittenCall
        = ((uses place names e).filter (·.target.arity ≤ -2)).map
            fun u => Fact.call (owner module around) u.target ⟨unit, u.line⟩ := by
          rw [List.filter_map]
          rfl
      _ = (e.calls.filterMap (called? place names)).map
            fun u => Fact.call (owner module around) u.target ⟨unit, u.line⟩ := by rw [huses]
      _ = e.calls.filterMap fun c => CallSite.fact? module unit ⟨around, place, names, c⟩ := by
          simp [List.map_filterMap, called?, CallSite.fact?, CallSite.callee?, Function.comp_def]
      _ = (Visit.callSites ⟨⟨around, .expression e⟩, place, names⟩).filterMap
        (CallSite.fact? module unit) := by
          rw [Visit.callSites, List.filterMap_map]
          rfl
  | hint e => rfl
  | function line name parameters decorators body => rfl
  | classDef line name bases keywords decorators body => rfl

theorem filter_links (module unit : String) (v : Visit) :
    (v.links module unit).filter isWrittenCall = [] := by
  refine List.filter_eq_nil_iff.2 fun f hf => ?_
  obtain ⟨caller, callee, site, rfl, harity⟩ := arity_of_mem_links hf
  simp [isWrittenCall, Fact.callee?, harity]

/-- The calls among the facts of a module are those of one call site after the other. -/
theorem written_factsOf {module unit : String} {isPackage : Bool} {body : List Stmt}
    {facts : List Fact} (h : factsOf module unit isPackage body = .ok facts) :
    facts.filter isWrittenCall =
      (callSites module isPackage body).filterMap (CallSite.fact? module unit) := by
  calc facts.filter isWrittenCall
      = (moduleVisits module isPackage body).flatMap fun v =>
          (v.used module unit ++ v.links module unit).filter isWrittenCall :=
            filter_factsOf h fun _ _ => rfl
    _ = (moduleVisits module isPackage body).flatMap fun v =>
      v.callSites.filterMap (CallSite.fact? module unit) :=
        List.flatMap_congr fun v _ => by rw [List.filter_append, filter_used, filter_links,
          List.append_nil]
    _ = (callSites module isPackage body).filterMap (CallSite.fact? module unit) := by
        rw [callSites, List.filterMap_flatMap]

/-- **No call is lost and none is counted twice.** The walk comes to the calls that are written
outside of annotations, each once; a call of which it is known what it refers to is one fact, made
by the owner of the call on its line, and the arity of what is called tells the number of its
arguments. -/
theorem calls_exact {module unit : String} {isPackage : Bool} {body : List Stmt} {facts : List Fact}
    (h : factsOf module unit isPackage body = .ok facts) :
    (callSites module isPackage body).map (fun c => (c.around, c.call)) = writtenCalls body ∧
      facts.filter (fun f => f.callee?.any (·.arity ≤ -2)) =
        (callSites module isPackage body).filterMap (fun c => c.callee?.map fun s =>
          .call (owner module c.around) s ⟨unit, c.call.line⟩) ∧
      ∀ c ∈ callSites module isPackage body, ∀ s, c.callee? = some s →
        s.arity = -2 - (c.call.arguments.length + c.call.keywords.length) := by
  refine ⟨written_callSites module isPackage body, written_factsOf h, fun c _ s hs => ?_⟩
  have harity := arity_callee? hs
  rw [harity, CallExpr.argc]
  push_cast
  rfl

/-- A class with a decorator, a base and a method whose default, annotation, inner function and
inner class call something, a declaration with a call in its annotation, and a call of something
unknown. -/
def market : List Stmt :=
  [.importFrom 0 "lib" [{ name := "register" }, { name := "base" }, { name := "make" },
    { name := "check" }],
    .classDef 3 "Shop" [.call 3 (.name 3 "base" .load) [] []] []
      [.call 2 (.name 2 "register" .load) [.constant] []]
      [.function 4 "open"
        { positional := ["self", "key"]
          defaults := [.call 4 (.name 4 "make" .load) [] []]
          hints := [.call 4 (.name 4 "check" .load) [] []] } []
        [.function 5 "inner" {} []
            [.evaluate (.call 6 (.member 6 (.call 6 (.name 6 "make" .load) [] []) "send" .load)
              [.constant] [.constant])],
          .classDef 7 "Local" [] [] []
            [.assign [.name 8 "x" .store]
              (.lambda [] [] (.call 8 (.name 8 "check" .load) [.constant] []))]]],
    .declare (.name 9 "total" .store) (.call 9 (.name 9 "check" .load) [] [])
      (some (.call 9 (.name 9 "make" .load) [] [])),
    .evaluate (.call 10 (.name 10 "unknown" .load) [] [])]

theorem market_calls : ∃ facts, factsOf "shop" "shop.py" false market = .ok facts ∧
    facts.filter (fun f => f.callee?.any (·.arity ≤ -2)) =
      [.call (.body "shop") ⟨"lib", "register", -3⟩ ⟨"shop.py", 2⟩,
        .call (.classOf "shop.Shop") ⟨"lib", "base", -2⟩ ⟨"shop.py", 3⟩,
        .call (.classOf "shop.Shop") ⟨"lib", "make", -2⟩ ⟨"shop.py", 4⟩,
        .call ⟨"shop.Shop", "open", 1⟩ ⟨"<attr>", "send", -4⟩ ⟨"shop.py", 6⟩,
        .call ⟨"shop.Shop", "open", 1⟩ ⟨"lib", "make", -2⟩ ⟨"shop.py", 6⟩,
        .call ⟨"shop.Shop", "open", 1⟩ ⟨"lib", "check", -3⟩ ⟨"shop.py", 8⟩,
        .call (.body "shop") ⟨"lib", "make", -2⟩ ⟨"shop.py", 9⟩] := by
  have hok : (factsOf "shop" "shop.py" false market).toBool = true := by decide +kernel
  obtain ⟨facts, hfacts⟩ := exists_ok_of_toBool hok
  obtain ⟨-, hcalls, -⟩ := calls_exact hfacts
  exact ⟨facts, hfacts, hcalls.trans rfl⟩

end Collect

end Deadwood
