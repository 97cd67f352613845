import Deadwood.Collect.Scope

/-!
# The uses in an expression

`uses` walks over an expression and lists the calls and the mentions of known names in it, in the
order in which they are written. What is called is passed over if it is a name, and walked over
below its last attribute otherwise, so that a call is not also counted as a mention.
-/

namespace Deadwood.Collect

open Source (Expr Use)

/-- An unresolved symbol and the line on which it is used. -/
structure Mention where
  target : Symbol
  line : Nat
deriving Repr, DecidableEq, Inhabited

/-- The use of a name that is read. -/
def nameUse (p : Place) (n : Names) (line : Nat) (id : String) : Use → List Mention
  | .store => []
  | .load =>
    if isReceiver id then []
    else ((resolve? p n id).map fun t => ⟨mentionedAs t, line⟩).toList

/-- The use of an attribute that is read. -/
def attributeUse (p : Place) (n : Names) (line : Nat) (value : Expr) (field : String) :
    Use → List Mention
  | .store => []
  | .load => ((resolveAttribute? p n value field).map fun t => ⟨mentionedAs t, line⟩).toList

/-- The use of what is called. -/
def callUse (p : Place) (n : Names) (line : Nat) (function : Expr) (argc : Nat) : List Mention :=
  ((callee? p n function argc).map fun s => ⟨s, line⟩).toList

mutual

/-- The uses in an expression. -/
def uses (p : Place) (n : Names) : Expr → List Mention
  | .name line id use => nameUse p n line id use
  | .member line value field use => attributeUse p n line value field use ++ uses p n value
  | .call line function arguments keywords =>
    callUse p n line function (arguments.length + keywords.length) ++
      calledUses p n function ++ usesAll p n arguments ++ usesAll p n keywords
  | .subscript value index => uses p n value ++ uses p n index
  | .text _ => []
  | .constant => []
  | .starred value => uses p n value
  | .tuple items => usesAll p n items
  | .list items => usesAll p n items
  | .set items => usesAll p n items
  | .lambda keywordDefaults defaults body =>
    usesAll p n keywordDefaults ++ usesAll p n defaults ++ uses p n body
  | .compound _ parts => usesAll p n parts

/-- The uses in an expression that is called, apart from that of the expression itself. -/
def calledUses (p : Place) (n : Names) : Expr → List Mention
  | .name .. => []
  | .member _ value _ _ => uses p n value
  | .call line function arguments keywords =>
    callUse p n line function (arguments.length + keywords.length) ++
      calledUses p n function ++ usesAll p n arguments ++ usesAll p n keywords
  | .subscript value index => uses p n value ++ uses p n index
  | .text _ => []
  | .constant => []
  | .starred value => uses p n value
  | .tuple items => usesAll p n items
  | .list items => usesAll p n items
  | .set items => usesAll p n items
  | .lambda keywordDefaults defaults body =>
    usesAll p n keywordDefaults ++ usesAll p n defaults ++ uses p n body
  | .compound _ parts => usesAll p n parts

/-- The uses in expressions, one after the other. -/
def usesAll (p : Place) (n : Names) : List Expr → List Mention
  | [] => []
  | e :: rest => uses p n e ++ usesAll p n rest

end

/-- Of an expression that is called and is neither a name nor an attribute, all uses are listed. -/
theorem calledUses_eq_uses (p : Place) (n : Names) (e : Expr)
    (hName : ∀ line id use, e ≠ .name line id use)
    (hMember : ∀ line value field use, e ≠ .member line value field use) :
    calledUses p n e = uses p n e := by
  cases e with
  | name line id use => exact absurd rfl (hName line id use)
  | member line value field use => exact absurd rfl (hMember line value field use)
  | _ => simp only [calledUses, uses]

end Deadwood.Collect
