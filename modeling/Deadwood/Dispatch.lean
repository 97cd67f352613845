import Deadwood.Graph.Basic
import Deadwood.Setting

/-!
# Dynamic dispatch

A function that looks up names at run time may reach definitions without a visible call. The
dispatchers of a graph are its defined callers of a primitive for such look-ups; a warning points
each scope with dispatchers out and suggests an ignore entry for it.
-/

namespace Deadwood.Dispatch

/-- The primitives: scope and name, and the arities with which they look up names (any, if none). -/
def primitives : List ((String × String) × Option (List Int)) :=
  [(("builtins", "getattr"), some [2, 3]), (("operator", "methodcaller"), none),
    (("operator", "attrgetter"), none), (("importlib", "import_module"), none),
    (("builtins", "__import__"), none), (("builtins", "eval"), none), (("builtins", "exec"), none)]

/-- Whether calling `s` looks up names at run time. -/
def isDynamic (s : Symbol) : Bool :=
  primitives.any fun (place, arities) =>
    place = (s.scope, s.name) && arities.all (·.contains s.arity)

/-- Puts an element into a list in order without repetition. -/
def insertNew {α : Type} [DecidableEq α] (le : α → α → Bool) (x : α) (xs : List α) : List α :=
  if xs.contains x then xs else (x :: xs).mergeSort le

/-- The order of signatures: by name, then arity. -/
def signatureLe (a b : String × Int) : Bool := ((compare a.1 b.1).then (compare a.2 b.2)).isLE

/-- The defined callers of primitives. -/
def callers {M L : Type} (g : CallGraph M L) : List Symbol :=
  (g.edges.filter fun e => g.isDefined e.1 && isDynamic e.2).map (·.1)

/-- For each scope with dispatchers, in order, the signatures of those, in order. -/
def dispatchers {M L : Type} (g : CallGraph M L) : List (String × List (String × Int)) :=
  let found := callers g
  let scopes := (found.map (·.scope)).foldl (fun xs s => insertNew (fun a b => a ≤ b) s xs) []
  scopes.map fun scope =>
    (scope, (found.filter (·.scope = scope)).foldl
      (fun xs s => insertNew signatureLe (s.name, s.arity) xs) [])

/-- The ignore entry that covers a scope. -/
def suggestion (scope : String) : Setting := .list [.str scope, .str "_", .str "_"]

/-- A dispatcher as warnings name it. -/
def signatureText (f : String × Int) : String :=
  if f.1 = Symbol.bodyName then "module body" else f.1 ++ "/" ++ toString f.2

/-- The warning for a scope with dispatchers. -/
def warning (d : String × List (String × Int)) : String :=
  d.1 ++ " uses dynamic dispatch (" ++ ", ".intercalate (d.2.map signatureText) ++
    "); symbols it reaches by name may be reported as unused. To silence them add to ignore: " ++
    (suggestion d.1).display

/-- The warnings for all scopes with dispatchers. -/
def warnings (ds : List (String × List (String × Int))) : List String := ds.map warning

end Deadwood.Dispatch
