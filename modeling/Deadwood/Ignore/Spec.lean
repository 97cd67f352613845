import Deadwood.Fact
import Deadwood.Regex.Pattern
import Deadwood.Text.Integer

/-!
# Ignore specifications

An ignore specification says which symbols are left out of a report: by scope, name and arity, by
scope alone, as the constructors of a class, or by a predicate that is part of the configuration.
`Spec.matches` decides; only a predicate can fail to answer.
-/

namespace Deadwood.Ignore

/-- A condition on a text: none, equality, or a pattern that occurs in it. -/
inductive TextField where
  | any
  | exact (s : String)
  | pattern (p : Pattern)
deriving Repr, DecidableEq

/-- A condition on an arity: none, equality, or bounds that are included. -/
inductive ArityField where
  | any
  | exact (n : Int)
  | between (lo hi : Int)
deriving Repr, DecidableEq

/-- A condition supplied from outside. -/
structure Predicate where
  /-- The predicate as messages show it. -/
  shown : String
  /-- The name of the predicate, if it has one. -/
  name : Option String
  /-- For each positional parameter whether it is required; `none` if the parameters are unknown. -/
  parameters : Option (List Bool)
  /-- The answer for a symbol and, if asked for, its description; or the failure as shown. -/
  apply : Symbol → Option Meta → Except String Bool

instance : Repr Predicate := ⟨fun p _ => p.shown⟩

/-- An ignore specification. -/
inductive Spec where
  | symbol (onScope onName : TextField) (onArity : ArityField)
  | scope (onScope : TextField)
  /-- The class with a matching scope and the initializer of its fields. -/
  | record (onScope : TextField)
  /-- A predicate that is asked with `arguments` arguments. -/
  | predicate (p : Predicate) (arguments : Nat)

/-- A predicate failed while it was asked about a symbol. -/
structure PredicateFailure where
  /-- The predicate's name, or the predicate as shown. -/
  predicate : String
  symbol : Symbol
  /-- The failure as shown. -/
  failure : String
deriving Repr, DecidableEq

/-- The message for a failed predicate. -/
def PredicateFailure.message (f : PredicateFailure) : String :=
  "ignore predicate " ++ f.predicate ++ " failed on " ++ f.symbol.text ++ " (" ++ f.failure ++ ")"

/-! ## Matching -/

/-- Whether the condition holds of a text. -/
def TextField.holds : TextField → String → Bool
  | .any, _ => true
  | .exact s, t => t = s
  | .pattern p, t => p.occursIn t

/-- Whether the condition holds of an arity. -/
def ArityField.holds : ArityField → Int → Bool
  | .any, _ => true
  | .exact n, k => k = n
  | .between lo hi, k => lo ≤ k && k ≤ hi

/-- Whether the specification covers a symbol. -/
def Spec.matches (spec : Spec) (s : Symbol) (info : Option Meta) : Except PredicateFailure Bool :=
  match spec with
  | .symbol onScope onName onArity =>
    .ok (onScope.holds s.scope && onName.holds s.name && onArity.holds s.arity)
  | .scope onScope => .ok (onScope.holds s.scope)
  | .record onScope =>
    .ok (s.name = Symbol.recordName && (s.arity = 0 || s.arity = 1) && onScope.holds s.scope)
  | .predicate p arguments =>
    match p.apply s (if arguments = 1 then none else some (info.getD {})) with
    | .ok answer => .ok answer
    | .error failure => .error ⟨p.name.getD p.shown, s, failure⟩

/-- Whether one of the specifications covers a symbol; those behind the first that does are not
asked. -/
def matchesAny (specs : List Spec) (s : Symbol) (info : Option Meta) :
    Except PredicateFailure Bool :=
  match specs with
  | [] => .ok false
  | spec :: rest => do
    if ← spec.matches s info then pure true else matchesAny rest s info

/-! ## Display -/

/-- The condition as messages show it. -/
def TextField.display : TextField → String
  | .any => "AnyValue()"
  | .exact s => "Exact(value=" ++ Text.quoted s ++ ")"
  | .pattern p => "Pattern(regex=" ++ p.display ++ ")"

/-- The condition as messages show it. -/
def ArityField.display : ArityField → String
  | .any => "AnyValue()"
  | .exact n => "Exact(value=" ++ toString n ++ ")"
  | .between lo hi => "ArityRange(lower=" ++ toString lo ++ ", upper=" ++ toString hi ++ ")"

/-- Whether the condition can be shown: a number with too many digits cannot. -/
def ArityField.isShown : ArityField → Bool
  | .any => true
  | .exact n => Text.isShort n
  | .between lo hi => Text.isShort lo && Text.isShort hi

/-- Whether the specification can be shown. -/
def Spec.isShown : Spec → Bool
  | .symbol _ _ onArity => onArity.isShown
  | _ => true

/-- The specification as messages show it. -/
def Spec.display : Spec → String
  | .symbol onScope onName onArity =>
    "SymbolSpec(scope=" ++ onScope.display ++ ", name=" ++ onName.display ++ ", arity=" ++
      onArity.display ++ ")"
  | .scope onScope => "ScopeSpec(scope=" ++ onScope.display ++ ")"
  | .record onScope => "StructSpec(scope=" ++ onScope.display ++ ")"
  | .predicate p arguments =>
    "PredicateSpec(func=" ++ p.shown ++ ", arity=" ++ toString arguments ++ ")"

end Deadwood.Ignore
