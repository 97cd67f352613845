/-!
# Symbols

A symbol names a definition: the scope it stands in (a dotted module or class name), its own name
and the number of its positional parameters. Symbols are ordered by scope, then name, then arity.

Two names are reserved: `Symbol.bodyName` for the code of a module itself, and `Symbol.recordName`
for the two constructors of a class, arity 0 being the class and arity 1 the initializer of its
fields. A negative arity marks a callee that is not resolved yet: -1 a bare mention of a name, and
-2 - n a call with n arguments.
-/

namespace Deadwood

/-- A definition's name: scope, name and arity. -/
structure Symbol where
  scope : String
  name : String
  arity : Int
deriving Repr, DecidableEq, Inhabited

namespace Symbol

/-- The reserved name of a module's own code. -/
def bodyName : String := "<module>"

/-- The reserved name of a class's constructors. -/
def recordName : String := "__struct__"

/-- The symbol of a module's own code. -/
def body (module : String) : Symbol := ⟨module, bodyName, 0⟩

/-- The symbol of a class. -/
def classOf (scope : String) : Symbol := ⟨scope, recordName, 0⟩

/-- The symbol of the initializer of a class's fields. -/
def fieldsOf (scope : String) : Symbol := ⟨scope, recordName, 1⟩

/-- An unresolved mention of a name. -/
def mention (scope name : String) : Symbol := ⟨scope, name, -1⟩

/-- An unresolved call with `n` arguments. -/
def callWith (scope name : String) (n : Nat) : Symbol := ⟨scope, name, -2 - n⟩

/-- Whether the symbol can name a definition: it has a name and its arity is not negative. -/
def Valid (s : Symbol) : Prop := s.name ≠ "" ∧ 0 ≤ s.arity

instance (s : Symbol) : Decidable s.Valid := inferInstanceAs (Decidable (_ ∧ _))

/-- The order of symbols: by scope, then name, then arity. -/
def cmp (a b : Symbol) : Ordering :=
  (compare a.scope b.scope).then ((compare a.name b.name).then (compare a.arity b.arity))

instance : Ord Symbol := ⟨cmp⟩

/-- Whether `a` stands before `b` or is equal to it. -/
def le (a b : Symbol) : Bool := (cmp a b).isLE

/-- A list of symbols in order. -/
def sort (xs : List Symbol) : List Symbol := xs.mergeSort le

/-- Name and arity. -/
def signature (s : Symbol) : String := s.name ++ "/" ++ toString s.arity

/-- Scope, name and arity. -/
def text (s : Symbol) : String := s.scope ++ "." ++ s.signature

/-- The symbol as messages name it. -/
def describe (s : Symbol) : String :=
  if s.name = recordName then
    if s.arity = 0 then "class " ++ s.scope else s.scope ++ " field initializer"
  else s.text

end Symbol

end Deadwood
