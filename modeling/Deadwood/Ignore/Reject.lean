import Deadwood.Finding
import Deadwood.Ignore.Spec
import Deadwood.Table

/-!
# Leaving findings out

A finding is left out if an ignore specification covers its symbol. The initializer of a class's
fields is left out too if the class itself is reported as unused.
-/

namespace Deadwood.Ignore

/-- The scopes of the classes that are reported as unused. -/
def unusedClasses (findings : List Finding) : List String :=
  (findings.filter fun f =>
    f.kind = .unused && f.symbol.name = Symbol.recordName && f.symbol.arity = 0).map
      (·.symbol.scope)

/-- Whether a symbol is the initializer of the fields of one of the classes. -/
def isFieldsOf (classes : List String) (s : Symbol) : Bool :=
  s.name = Symbol.recordName && s.arity = 1 && classes.contains s.scope

/-- The findings that remain, given the scopes of the unused classes. -/
def keepUnmatched (classes : List String) (specs : List Spec) (metas : Table Symbol Meta) :
    List Finding → Except PredicateFailure (List Finding)
  | [] => .ok []
  | f :: rest => do
    if isFieldsOf classes f.symbol then keepUnmatched classes specs metas rest
    else if ← matchesAny specs f.symbol (metas.find? f.symbol) then
      keepUnmatched classes specs metas rest
    else do
      let kept ← keepUnmatched classes specs metas rest
      pure (f :: kept)

/-- The findings that are not left out, in order. -/
def reject (findings : List Finding) (specs : List Spec) (metas : Table Symbol Meta) :
    Except PredicateFailure (List Finding) :=
  keepUnmatched (unusedClasses findings) specs metas findings

end Deadwood.Ignore
