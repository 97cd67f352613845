import Deadwood.Collect.Uses
import Mathlib.Data.List.Basic

/-!
# What an expression holds

`uses` follows a call to what is called in another way than it follows everything else. This module
lists the expressions in an expression without that difference, and says what each of them
contributes.

* `Expr.within` lists an expression and all expressions in it, each with whether it is called there.
* `Expr.calls` are the calls among them.
* `uses_eq_within`: the uses in an expression are those of one expression in it after the other.
* `filter_uses`: the uses that are calls are those of the calls in the expression.
-/

namespace Deadwood.Source

/-- An expression in another one, and whether it is called there. -/
structure Occurrence where
  expr : Expr
  called : Bool := false

/-- A call with its arguments and the values of its keyword arguments. -/
structure CallExpr where
  line : Nat
  function : Expr
  arguments : List Expr
  keywords : List Expr

/-- The number of arguments of a call. -/
def CallExpr.argc (c : CallExpr) : Nat := c.arguments.length + c.keywords.length

namespace Expr

mutual

/-- The expressions that are parts of an expression, or parts of its parts. -/
def inner : Expr → List Occurrence
  | .name .. => []
  | .member _ value _ _ => ⟨value, false⟩ :: value.inner
  | .call _ function arguments keywords =>
    ⟨function, true⟩ :: function.inner ++ withinAll arguments ++ withinAll keywords
  | .subscript value index => ⟨value, false⟩ :: value.inner ++ ⟨index, false⟩ :: index.inner
  | .text _ => []
  | .constant => []
  | .starred value => ⟨value, false⟩ :: value.inner
  | .tuple items => withinAll items
  | .list items => withinAll items
  | .set items => withinAll items
  | .lambda keywordDefaults defaults body =>
    withinAll keywordDefaults ++ withinAll defaults ++ ⟨body, false⟩ :: body.inner
  | .compound _ parts => withinAll parts

/-- Expressions that are not called and what is in them, one after the other. -/
def withinAll : List Expr → List Occurrence
  | [] => []
  | e :: rest => ⟨e, false⟩ :: e.inner ++ withinAll rest

end

/-- An expression that is not called and all expressions in it. -/
def within (e : Expr) : List Occurrence := ⟨e, false⟩ :: e.inner

/-- An expression as a call. -/
def call? : Expr → Option CallExpr
  | .call line function arguments keywords => some ⟨line, function, arguments, keywords⟩
  | _ => none

/-- The calls in an expression. -/
def calls (e : Expr) : List CallExpr := e.within.filterMap (·.expr.call?)

end Expr

end Deadwood.Source

namespace Deadwood.Collect

open Source

/-- What an expression uses apart from what is used in its parts: a name or attribute that is called
is not also a mention. -/
def ownUses (p : Place) (n : Names) : Occurrence → List Mention
  | ⟨.name line id use, false⟩ => nameUse p n line id use
  | ⟨.member line value field use, false⟩ => attributeUse p n line value field use
  | ⟨.call line function arguments keywords, _⟩ =>
    callUse p n line function (arguments.length + keywords.length)
  | _ => []

/-- The uses in an expression that is called, from those in the expression. -/
theorem calledUses_of_uses {p : Place} {n : Names} {e : Expr}
    (h : uses p n e = e.within.flatMap (ownUses p n)) :
    calledUses p n e = ownUses p n ⟨e, true⟩ ++ e.inner.flatMap (ownUses p n) := by
  cases e with
  | name line id use => rfl
  | member line value field use =>
    -- the mention of the attribute itself is what both sides of `h` begin with
    exact List.append_cancel_left h
  | _ =>
    rw [calledUses_eq_uses p n _ (by simp) (by simp), h]
    rfl

mutual

/-- **The uses in an expression** are those of one expression in it after the other. -/
theorem uses_eq_within (p : Place) (n : Names) (e : Expr) :
    uses p n e = e.within.flatMap (ownUses p n) := by
  cases e with
  | name line id use => simp [uses, Expr.within, Expr.inner, ownUses]
  | member line value field use =>
    simp [uses, Expr.within, Expr.inner, ownUses, uses_eq_within p n value]
  | call line function arguments keywords =>
    simp [uses, Expr.within, Expr.inner, ownUses, calledUses_of_uses (uses_eq_within p n function),
      usesAll_eq_within p n arguments, usesAll_eq_within p n keywords]
  | subscript value index =>
    simp [uses, Expr.within, Expr.inner, ownUses, uses_eq_within p n value,
      uses_eq_within p n index]
  | text value => rfl
  | constant => rfl
  | starred value => simp [uses, Expr.within, Expr.inner, ownUses, uses_eq_within p n value]
  | tuple items => exact usesAll_eq_within p n items
  | list items => exact usesAll_eq_within p n items
  | set items => exact usesAll_eq_within p n items
  | lambda keywordDefaults defaults body =>
    simp [uses, Expr.within, Expr.inner, ownUses, usesAll_eq_within p n keywordDefaults,
      usesAll_eq_within p n defaults, uses_eq_within p n body]
  | compound form parts => exact usesAll_eq_within p n parts

theorem usesAll_eq_within (p : Place) (n : Names) (es : List Expr) :
    usesAll p n es = (Expr.withinAll es).flatMap (ownUses p n) := by
  cases es with
  | nil => rfl
  | cons e rest =>
    simp [usesAll, Expr.withinAll, Expr.within, uses_eq_within p n e, usesAll_eq_within p n rest]

end

/-! ## Arities -/

/-- A call and what it refers to at a place. -/
def called? (p : Place) (n : Names) (c : CallExpr) : Option Mention :=
  (callee? p n c.function c.argc).map fun s => ⟨s, c.line⟩

/-- **What a call refers to tells the number of its arguments.** -/
theorem arity_callee? {p : Place} {n : Names} {function : Expr} {argc : Nat} {s : Symbol}
    (h : callee? p n function argc = some s) : s.arity = -2 - argc := by
  unfold callee? at h
  repeat' split at h
  all_goals cases h
  all_goals rfl

theorem arity_of_mem_nameUse {p : Place} {n : Names} {line : Nat} {id : String} {use : Use} :
    ∀ u ∈ nameUse p n line id use, u.target.arity = -1 := by
  intro u hu
  cases use with
  | store => cases hu
  | load =>
    simp only [nameUse] at hu
    split at hu
    · cases hu
    · obtain ⟨t, -, rfl⟩ := Option.map_eq_some_iff.1 (Option.mem_toList.1 hu)
      rfl

theorem arity_of_mem_attributeUse {p : Place} {n : Names} {line : Nat} {value : Expr}
    {field : String} {use : Use} :
    ∀ u ∈ attributeUse p n line value field use, u.target.arity = -1 := by
  intro u hu
  cases use with
  | store => cases hu
  | load =>
    obtain ⟨t, -, rfl⟩ := Option.map_eq_some_iff.1 (Option.mem_toList.1 hu)
    rfl

/-- What an expression uses itself: a mention, or what a call refers to. -/
theorem ownUses_cases (p : Place) (n : Names) (o : Occurrence) :
    (o.expr.call? = none ∧ ∀ u ∈ ownUses p n o, u.target.arity = -1) ∨
      ∃ c, o.expr.call? = some c ∧ ownUses p n o = (called? p n c).toList := by
  obtain ⟨e, called⟩ := o
  cases e with
  | name line id use =>
    cases called with
    | false => exact .inl ⟨rfl, arity_of_mem_nameUse⟩
    | true => exact .inl ⟨rfl, List.forall_mem_nil _⟩
  | member line value field use =>
    cases called with
    | false => exact .inl ⟨rfl, arity_of_mem_attributeUse⟩
    | true => exact .inl ⟨rfl, List.forall_mem_nil _⟩
  | call line function arguments keywords => exact .inr ⟨_, rfl, rfl⟩
  | _ => exact .inl ⟨rfl, List.forall_mem_nil _⟩

theorem arity_of_called? {p : Place} {n : Names} {c : CallExpr} {u : Mention}
    (h : called? p n c = some u) :
    u.target.arity = -2 - c.argc := by
  obtain ⟨s, hs, rfl⟩ := Option.map_eq_some_iff.1 h
  exact arity_callee? hs

/-- What is used is not resolved. -/
theorem arity_of_mem_uses {p : Place} {n : Names} {e : Expr} :
    ∀ u ∈ uses p n e, u.target.arity < 0 := by
  intro u hu
  rw [uses_eq_within, List.mem_flatMap] at hu
  obtain ⟨o, -, hu⟩ := hu
  obtain ⟨-, hmention⟩ | ⟨c, -, hcall⟩ := ownUses_cases p n o
  · have := hmention u hu
    omega
  · rw [hcall, Option.mem_toList] at hu
    have := arity_of_called? hu
    omega

/-- Of what an expression uses itself, a call is all that counts as a call. -/
theorem filter_ownUses (p : Place) (n : Names) (o : Occurrence) :
    (ownUses p n o).filter (·.target.arity ≤ -2) = (o.expr.call?.bind (called? p n)).toList := by
  obtain ⟨hnone, hmention⟩ | ⟨c, hc, hcall⟩ := ownUses_cases p n o
  · rw [hnone, List.filter_eq_nil_iff.2]
    · rfl
    · intro u hu
      simp [hmention u hu]
  · rw [hc, hcall]
    refine List.filter_eq_self.2 fun u hu => ?_
    have := arity_of_called? (Option.mem_toList.1 hu)
    simp only [decide_eq_true_eq]
    omega

/-- **The uses that are calls are those of the calls in the expression**, in order. -/
theorem filter_uses (p : Place) (n : Names) (e : Expr) :
    (uses p n e).filter (·.target.arity ≤ -2) = e.calls.filterMap (called? p n) := by
  rw [uses_eq_within, List.filter_flatMap, Expr.calls, List.filterMap_filterMap,
    List.filterMap_eq_flatMap_toList]
  exact List.flatMap_congr fun o _ => filter_ownUses p n o

end Deadwood.Collect
